import MarkdownModule.Text.Basic

/-!
# White space

`isBlank` is the Unicode property White_Space, `isSpace` the five ASCII characters that separate
the parts of a tag.  `Text.trim` removes blanks at both ends.
-/

namespace MarkdownModule

/-- the Unicode property White_Space -/
def isBlank (c : Char) : Bool :=
  ('\t' ≤ c && c ≤ '\r') || c = ' ' || c = '\x85' || c = '\u00a0' || c = '\u1680'
    || ('\u2000' ≤ c && c ≤ '\u200a') || c = '\u2028' || c = '\u2029' || c = '\u202f'
    || c = '\u205f' || c = '\u3000'

/-- the ASCII characters that separate the parts of a tag -/
def isSpace (c : Char) : Bool :=
  c = ' ' || c = '\t' || c = '\n' || c = '\x0c' || c = '\r'

theorem isBlank_of_isSpace {c : Char} (h : isSpace c = true) : isBlank c = true := by
  simp only [isSpace, Bool.or_eq_true, decide_eq_true_eq] at h
  rcases h with (((h | h) | h) | h) | h <;> subst h <;> decide

namespace Text

def trimStart (s : Text) : Text := s.dropWhile isBlank

def trimEnd (s : Text) : Text := dropEndWhile isBlank s

def trim (s : Text) : Text := trimEnd (trimStart s)

def allBlank (s : Text) : Bool := s.all isBlank

end Text

end MarkdownModule

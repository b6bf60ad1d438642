import MarkdownModule.Text.Blank
import MarkdownModule.Text.Punctuation

/-!
# What stands beside a mark

Whether a mark opens or closes emphasis depends on the characters on its two sides: blanks,
punctuation, or others.
-/

namespace MarkdownModule.Markdown

/-- the kind of a character beside a mark -/
inductive Side where
  | blank
  | punctuation
  | word
deriving DecidableEq

namespace Side

def ofChar (c : Char) : Side :=
  if isBlank c then .blank else if isPunctuation c then .punctuation else .word

def ofChar? : Option Char → Side
  | none => .blank
  | some c => ofChar c

end Side

end MarkdownModule.Markdown

/-!
# Text as a list of characters

`Text` is the type that every part of the library reads and writes.  Cuts are made between
characters, so no cut can fall inside one.

* `Text.cutAt`       the text before the first place where a test holds, and the text from there on
* `Text.cutAt_append`  the two parts put together are the whole text
-/

namespace MarkdownModule

/-- text, as the list of its characters -/
abbrev Text := List Char

namespace Text

/-! ## cuts -/

/-- the text before the first place where `p` holds of what follows, and what follows there -/
def cutAt (p : Text → Bool) : Text → Text × Text
  | [] => ([], [])
  | c :: r =>
    if p (c :: r) then ([], c :: r)
    else
      let t := cutAt p r
      (c :: t.1, t.2)

theorem cutAt_append (p : Text → Bool) (s : Text) : (cutAt p s).1 ++ (cutAt p s).2 = s := by
  induction s with
  | nil => rfl
  | cons c r ih =>
    unfold cutAt
    split
    · rfl
    · simp [ih]

theorem length_cutAt_snd_le (p : Text → Bool) (s : Text) : (cutAt p s).2.length ≤ s.length := by
  have h := congrArg List.length (cutAt_append p s)
  simp only [List.length_append] at h
  omega

/-- the text after the first place where `mark` stands, or nothing when it stands nowhere -/
def afterMark (mark s : Text) : Text :=
  ((cutAt (mark.isPrefixOf ·) s).2).drop mark.length

theorem length_afterMark_le (mark s : Text) : (afterMark mark s).length ≤ s.length := by
  have h := length_cutAt_snd_le (mark.isPrefixOf ·) s
  simp only [afterMark, List.length_drop]
  omega

/-- the text cut at every character equal to `c`, which is dropped -/
def splitOn (c : Char) : Text → List Text
  | [] => [[]]
  | d :: r =>
    if d = c then [] :: splitOn c r
    else
      match splitOn c r with
      | [] => [[d]]
      | w :: ws => (d :: w) :: ws

/-! ## letter case -/

/-- the text with its ASCII letters in lower case -/
def lower (s : Text) : Text := s.map Char.toLower

/-- two texts that differ in the case of ASCII letters alone -/
def sameIgnoringCase (a b : Text) : Bool := lower a == lower b

/-! ## ends -/

/-- the text without the longest tail of characters of which `p` holds -/
def dropEndWhile (p : Char → Bool) : Text → Text
  | [] => []
  | c :: r =>
    match dropEndWhile p r with
    | [] => if p c then [] else [c]
    | d :: t => c :: d :: t

def endsWith (c : Char) (s : Text) : Bool := s.getLast? == some c

end Text

end MarkdownModule

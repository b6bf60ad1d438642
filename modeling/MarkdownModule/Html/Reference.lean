import MarkdownModule.Html.NameTable
import MarkdownModule.Json.Syntax

/-!
# Character references

A reference `&name;`, `&#65;` or `&#x41;` in a value stands for one character.  A reference that
names no character, has no semicolon or gives the number of no character stays as it is written;
of a name that stands for two characters the first is taken.

* `Html.decodeReferences`    a text with its references replaced
* `Html.encodeDoubleQuoted`  a text as it is written between double quotes
-/

namespace MarkdownModule.Html

/-! ## reading -/

def numeralValue (base : Nat) (digits : Text) : Nat :=
  digits.foldl (fun n c => n * base + (Json.hexDigit? c).getD 0) 0

def isHexDigit (c : Char) : Bool := (Json.hexDigit? c).isSome

def isScalar (n : Nat) : Bool := n < 0xd800 || (0xe000 ≤ n && n < 0x110000)

/-- the text that a name stands for -/
def namedText? (name : Text) : Option String :=
  match name with
  | [] => none
  | c :: _ => (namesUnder c).lookup (String.ofList name)

/-- the text after a semicolon that must stand at the start -/
def afterSemicolon? : Text → Option Text
  | ';' :: r => some r
  | _ => none

/-- a numeral and the semicolon after it: the character of that number, and the text after it -/
def readNumeric? (base : Nat) (digit : Char → Bool) (s : Text) : Option (Char × Text) := do
  let digits := s.takeWhile digit
  let rest ← afterSemicolon? (s.dropWhile digit)
  let n := numeralValue base digits
  if digits.isEmpty || n = 0 || !isScalar n then none else some (Char.ofNat n, rest)

/-- a reference after its `&`: the character that it stands for, and the text after it -/
def readReference? : Text → Option (Char × Text)
  | '#' :: 'x' :: r => readNumeric? 16 isHexDigit r
  | '#' :: 'X' :: r => readNumeric? 16 isHexDigit r
  | '#' :: r => readNumeric? 10 Char.isDigit r
  | s => do
    let rest ← afterSemicolon? (s.dropWhile Char.isAlphanum)
    let value ← namedText? (s.takeWhile Char.isAlphanum)
    let c ← value.toList.head?
    some (c, rest)

theorem length_of_afterSemicolon {s r : Text} (h : afterSemicolon? s = some r) :
    r.length < s.length := by
  unfold afterSemicolon? at h
  split at h
  · simp only [Option.some.injEq] at h; subst h; simp
  · exact absurd h (by simp)

theorem length_of_readNumeric {base : Nat} {digit : Char → Bool} {s r : Text} {c : Char}
    (h : readNumeric? base digit s = some (c, r)) : r.length < s.length := by
  unfold readNumeric? at h
  cases hs : afterSemicolon? (s.dropWhile digit) with
  | none => simp [hs] at h
  | some t =>
    have ht := length_of_afterSemicolon hs
    have hd := (List.dropWhile_suffix (l := s) digit).length_le
    simp only [hs, Option.bind_eq_bind, Option.bind_some] at h
    split at h
    · exact absurd h (by simp)
    · simp only [Option.some.injEq, Prod.mk.injEq] at h
      obtain ⟨_, rfl⟩ := h
      omega

theorem length_of_readReference {s r : Text} {c : Char} (h : readReference? s = some (c, r)) :
    r.length < s.length := by
  unfold readReference? at h
  split at h
  · have := length_of_readNumeric h; simp only [List.length_cons]; omega
  · have := length_of_readNumeric h; simp only [List.length_cons]; omega
  · have := length_of_readNumeric h; simp only [List.length_cons]; omega
  · cases hs : afterSemicolon? (s.dropWhile Char.isAlphanum) with
    | none => simp [hs] at h
    | some t =>
      have ht := length_of_afterSemicolon hs
      have hd := (List.dropWhile_suffix (l := s) Char.isAlphanum).length_le
      simp only [hs, Option.bind_eq_bind, Option.bind_some] at h
      obtain ⟨value, _, h⟩ := Option.bind_eq_some_iff.1 h
      obtain ⟨d, _, h⟩ := Option.bind_eq_some_iff.1 h
      simp only [Option.some.injEq, Prod.mk.injEq] at h
      obtain ⟨_, rfl⟩ := h
      omega

def decodeReferences : Text → Text
  | [] => []
  | c :: r =>
    if c = '&' then
      match _h : readReference? r with
      | some (d, rest) => d :: decodeReferences rest
      | none => '&' :: decodeReferences r
    else c :: decodeReferences r
termination_by s => s.length
decreasing_by
  · have := length_of_readReference ‹_›; simp only [List.length_cons]; omega
  · simp
  · simp

/-! ## writing -/

def encodeChar (c : Char) : Text :=
  if c = '&' then "&amp;".toList
  else if c = '<' then "&lt;".toList
  else if c = '>' then "&gt;".toList
  else if c = '"' then "&quot;".toList
  else [c]

def encodeDoubleQuoted (s : Text) : Text := s.flatMap encodeChar

end MarkdownModule.Html

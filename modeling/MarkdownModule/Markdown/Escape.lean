import MarkdownModule.Html.Reference
import MarkdownModule.Text.Punctuation

/-!
# Escapes, character references and what is written for a character

A backslash before ASCII punctuation makes that character plain.  A reference `&name;`, `&#65;` or
`&#x41;` stands for the text of the name or the character of the number; the number of a control
character or of none stands for U+FFFD.

* `Markdown.readReference?`  a reference after its `&`
* `Markdown.decode`          a text with its escapes and references replaced
* `Markdown.escape`          a text as it is written in HTML
-/

namespace MarkdownModule.Markdown

/-! ## reading -/

/-- a space or a tab -/
def isGap (c : Char) : Bool := c = ' ' || c = '\t'

/-- a space, a tab or a line ending -/
def isWide (c : Char) : Bool := isGap c || c = '\n'

/-- whether a number is that of a control character which no reference gives -/
def isControl (n : Nat) : Bool :=
  n < 9 || n = 11 || (14 ≤ n && n < 32) || (127 ≤ n && n < 160)

def charOfNumber (n : Nat) : Char :=
  if Html.isScalar n && !isControl n then Char.ofNat n else '\ufffd'

/-- a numeral of at most `most` digits and a semicolon: the character of that number, and the text
after it -/
def readNumber? (base most : Nat) (digit : Char → Bool) (s : Text) : Option (Text × Text) := do
  let digits := s.takeWhile digit
  let rest ← Html.afterSemicolon? (s.dropWhile digit)
  if digits.isEmpty || most < digits.length then none
  else some ([charOfNumber (Html.numeralValue base digits)], rest)

/-- a reference after its `&`: the text that it stands for, and the text after it -/
def readReference? : Text → Option (Text × Text)
  | '#' :: 'x' :: r => readNumber? 16 6 Html.isHexDigit r
  | '#' :: 'X' :: r => readNumber? 16 6 Html.isHexDigit r
  | '#' :: r => readNumber? 10 7 Char.isDigit r
  | s => do
    let rest ← Html.afterSemicolon? (s.dropWhile Char.isAlphanum)
    let value ← Html.namedText? (s.takeWhile Char.isAlphanum)
    some (value.toList, rest)

/-- the lines after the first, each after its line ending and without spaces and tabs around it -/
def trimFollowing : List Text → Text
  | [] => []
  | [l] => '\n' :: l.dropWhile isGap
  | l :: ls => '\n' :: Text.dropEndWhile isGap (l.dropWhile isGap) ++ trimFollowing ls

/-- the text without spaces and tabs around its line endings -/
def trimLines (s : Text) : Text :=
  match Text.splitOn '\n' s with
  | [] => []
  | [l] => l
  | l :: ls => Text.dropEndWhile isGap l ++ trimFollowing ls

/-- the text with its escapes and references replaced, each step with one unit of fuel -/
def decodeWith : Nat → Text → Text
  | 0, s => s
  | _ + 1, [] => []
  | n + 1, '\\' :: c :: r =>
    if isAsciiPunctuation c then c :: decodeWith n r else '\\' :: decodeWith n (c :: r)
  | n + 1, '&' :: r =>
    match readReference? r with
    | some (t, rest) => t ++ decodeWith n rest
    | none => '&' :: decodeWith n r
  | n + 1, c :: r => c :: decodeWith n r

/-- the text with its escapes and references replaced and its lines trimmed -/
def decode (s : Text) : Text := decodeWith s.length (trimLines s)

/-! ## writing -/

def keepChar (c : Char) : Char := if c = '\x00' then '\ufffd' else c

/-- a text of HTML as it is written: U+0000 is replaced -/
def keep (s : Text) : Text := s.map keepChar

/-- a text as it is written in HTML: markup characters become references, U+0000 is replaced -/
def escape (s : Text) : Text := s.flatMap fun c => Html.encodeChar (keepChar c)

end MarkdownModule.Markdown

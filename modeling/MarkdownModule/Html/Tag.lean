import MarkdownModule.Text.Blank

/-!
# Tags as the standard reads them

`Html.Tag.read?` reads a tag after its `<` or `</`, by the rules of the HTML standard: attributes are
kept as they are written, so that `Html.Tag.write` changes nothing in those that are not set anew.

* `Html.Tag.set`    sets an attribute: the first one of the name in any letter case, or a new one
* `Html.Tag.write`  the tag with single spaces between its attributes
-/

namespace MarkdownModule.Html

/-- an attribute with the characters that write it -/
structure WrittenAttribute where
  /-- the name, without an `=` -/
  name : Text
  /-- the value, without its quotes -/
  value : Text
  /-- the whole attribute as it is written -/
  raw : Text

structure Tag where
  name : Text
  attributes : List WrittenAttribute
  selfClosing : Bool

namespace Tag

/-! ## reading -/

def endsName (c : Char) : Bool := isSpace c || c = '/' || c = '>'

/-- a value between quotes of one kind, and the text after the closing one, if there is one -/
def readQuoted? (q : Char) (s : Text) : Option (Text × Text) :=
  match s.dropWhile (· ≠ q) with
  | [] => none
  | _ :: rest => some (s.takeWhile (· ≠ q), rest)

/-- a value, and the text after it; nothing when the text ends in it -/
def readValue? : Text → Option (Text × Text)
  | [] => none
  | '"' :: r => readQuoted? '"' r
  | '\'' :: r => readQuoted? '\'' r
  | s => some (s.takeWhile (fun c => !(isSpace c || c = '>')),
      s.dropWhile (fun c => !(isSpace c || c = '>')))

/-- the attribute that begins with `c`, and the text after it; nothing when the text ends in it -/
def readAttribute? (c : Char) (r : Text) : Option (WrittenAttribute × Text) := do
  let name := c :: r.takeWhile (fun d => !(endsName d || d = '='))
  let rest := r.dropWhile (fun d => !(endsName d || d = '='))
  match rest.dropWhile isSpace with
  | '=' :: after =>
    match after.dropWhile isSpace with
    | '>' :: rest => some (⟨name, [], name⟩, '>' :: rest)
    | s =>
      let (value, rest) ← readValue? s
      some (⟨name, value, (c :: r).take ((c :: r).length - rest.length)⟩, rest)
  | _ => some (⟨name, [], name⟩, rest)

/-- the attributes, whether the tag closes itself, and the text after it; nothing when it does not
end -/
def readAttributes? : Nat → Text → Option (List WrittenAttribute × Bool × Text)
  | 0, _ => none
  | fuel + 1, s =>
    match s.dropWhile isSpace with
    | [] => none
    | '>' :: r => some ([], false, r)
    | '/' :: '>' :: r => some ([], true, r)
    | '/' :: r => readAttributes? fuel r
    | c :: r => do
      let (a, rest) ← readAttribute? c r
      let (as, closed, rest) ← readAttributes? fuel rest
      some (a :: as, closed, rest)

/-- the tag whose name begins the text, and the text after it; nothing when it does not end -/
def read? (s : Text) : Option (Tag × Text) := do
  let name := s.takeWhile (!endsName ·)
  let (as, closed, rest) ← readAttributes? (s.length + 1) (s.dropWhile (!endsName ·))
  some (⟨name, as, closed⟩, rest)

/-! ## writing -/

/-- an attribute with a value that holds no double quote -/
def quoted (name value : Text) : WrittenAttribute :=
  ⟨name, value, name ++ '=' :: '"' :: value ++ ['"']⟩

/-- the attributes after one is set -/
def setIn (name value : Text) : List WrittenAttribute → List WrittenAttribute
  | [] => [quoted name value]
  | a :: as =>
    if Text.lower a.name = name then quoted a.name value :: as else a :: setIn name value as

/-- the tag with an attribute set, whose name is in lower case -/
def set (t : Tag) (name value : Text) : Tag :=
  { t with attributes := setIn name value t.attributes }

/-- a start tag, its attributes with single spaces between them -/
def write (t : Tag) : Text :=
  let attributes := t.attributes.flatMap fun a => ' ' :: a.raw
  let close := if t.selfClosing then (if t.attributes.isEmpty then "/>" else " />") else ">"
  '<' :: t.name ++ attributes ++ close.toList

end Tag

end MarkdownModule.Html

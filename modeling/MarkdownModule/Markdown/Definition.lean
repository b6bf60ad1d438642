import MarkdownModule.Markdown.Destination
import MarkdownModule.Markdown.Label

/-!
# Definitions

A definition `[label]: destination "title"` gives a resource to the references with its label.
Definitions stand at the start of a paragraph.

* `Definition.read?`     a definition, and the text after its line
* `Definition.readAll`   the definitions at the start of a text, and the rest of it
-/

namespace MarkdownModule.Markdown

/-- a label with a resource -/
structure Definition where
  /-- the label in its normal form -/
  label : Text
  resource : Resource
deriving DecidableEq

namespace Definition

/-- the text after the rest of a line that holds blanks alone -/
def endLine? (s : Text) : Option Text :=
  match s.dropWhile isGap with
  | [] => some []
  | '\n' :: r => some r
  | _ => none

/-- a title after a destination that ends its line, and the text after that line -/
def endTitle? (s : Text) : Option (Text × Text) := do
  let after := s.dropWhile isWide
  if after.length < s.length then
    let (title, s) ← readTitle? after
    let rest ← endLine? s
    some (title, rest)
  else none

/-- a definition at the start of a text, and the text after its line -/
def read? (s : Text) : Option (Definition × Text) := do
  let '[' :: s := s.dropWhile isGap | none
  let (label, s) ← Label.read? s
  let ':' :: s := s | none
  let (destination, s) ← readDestination? s.length (s.dropWhile isWide)
  match endTitle? s with
  | some (title, rest) =>
    some (⟨Label.normal label, ⟨decode destination, titleOf title⟩⟩, rest)
  | none =>
    let rest ← endLine? s
    some (⟨Label.normal label, ⟨decode destination, none⟩⟩, rest)

/-- at most `n` definitions at the start of a text, and the rest of it -/
def readSome : Nat → Text → List Definition × Text
  | 0, s => ([], s)
  | n + 1, s =>
    match read? s with
    | some (d, rest) =>
      let (ds, rest) := readSome n rest
      (d :: ds, rest)
    | none => ([], s)

def readAll (s : Text) : List Definition × Text := readSome s.length s

/-- the resource of a label in its normal form: the first definition of it counts -/
def find? (ds : List Definition) (label : Text) : Option Resource :=
  (ds.find? (·.label == label)).map (·.resource)

end Definition

end MarkdownModule.Markdown

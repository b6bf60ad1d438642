import MarkdownModule.Markdown.Escape
import MarkdownModule.Text.Bytes
import MarkdownModule.Text.LetterCase

/-!
# Labels

A label names a definition.  Two labels are the same when they differ in letter case and in the
blanks between their words alone.

* `Label.normal`  the form in which labels are compared
* `Label.read?`   a label after its opening bracket
-/

namespace MarkdownModule.Markdown.Label

def words : Text → List Text
  | [] => []
  | c :: r =>
    if isWide c then words r
    else
      match r with
      | [] => [[c]]
      | d :: _ =>
        if isWide d then [c] :: words r
        else
          match words r with
          | [] => [[c]]
          | w :: ws => (c :: w) :: ws

/-- the label in the form in which labels are compared -/
def normal (s : Text) : Text := Text.foldCase (List.intercalate [' '] (words s))

/-- the text up to the bracket that closes a label, and the text after it; no bracket may open
another label -/
def span? : Text → Option (Text × Text)
  | [] => none
  | ']' :: r => some ([], r)
  | '[' :: _ => none
  | '\\' :: c :: r =>
    if c = '[' || c = ']' || c = '\\' then (span? r).map fun t => ('\\' :: c :: t.1, t.2)
    else (span? (c :: r)).map fun t => ('\\' :: t.1, t.2)
  | c :: r => (span? r).map fun t => (c :: t.1, t.2)

/-- the most bytes of a label -/
def most : Nat := 999

/-- a label after its opening bracket, and the text after the closing one: it has to hold more than
blanks -/
def read? (s : Text) : Option (Text × Text) := do
  let (label, rest) ← span? s
  if label.all isWide || most < Text.byteSize label then none else some (label, rest)

end MarkdownModule.Markdown.Label

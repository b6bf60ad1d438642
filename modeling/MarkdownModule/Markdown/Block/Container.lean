import MarkdownModule.Markdown.Block.Heading
import MarkdownModule.Markdown.Label

/-!
# Containers

A block quote, an item of a list and a footnote hold other blocks.  Each begins with a mark, and a
later line belongs to it when it begins as the container asks.

* `Container.open?`      the container that a line opens, and the line after its mark
* `Container.continue?`  the line after what continues a container
-/

namespace MarkdownModule.Markdown

inductive Container where
  | document
  | quote
  /-- an item of a list: the character that marks it, its number, the columns that its content is
  moved by, and whether it holds nothing yet -/
  | item (marker : Char) (number width : Nat) (empty : Bool)
  | footnote (label : Text)
deriving DecidableEq

namespace Container

/-! ## opening -/

def afterQuoteMark? (l : Line) : Option Line :=
  match l.inner with
  | '>' :: _ => if mostIndent < l.indent then none else some (l.skipAll.drop 1).skipColumn
  | _ => none

/-- the marker and the number of the item of a list that a text begins, and the length of both; a
list that interrupts a paragraph begins with the number one -/
def readMarker? (interrupts : Bool) (s : Text) : Option (Char × Nat × Nat) :=
  match s with
  | [] => none
  | c :: _ =>
    if c = '+' || ((c = '*' || c = '-') && !isRuleText s) then some (c, 0, 1)
    else
      let digits := s.takeWhile Char.isDigit
      match (s.drop digits.length).head? with
      | none => none
      | some d =>
        if (d = '.' || d = ')') && !digits.isEmpty && digits.length ≤ 9
            && (!interrupts || digits = ['1']) then
          some (d, Html.numeralValue 10 digits, digits.length + 1)
        else none

/-- the item of a list that a line opens, and the line after its marker; an item that interrupts a
paragraph is not empty -/
def openItem? (interrupts : Bool) (l : Line) : Option (Container × Line) := do
  let (marker, number, size) ← readMarker? interrupts l.inner
  let after := l.skipAll.drop size
  let width := l.indent + size
  let gap := after.indent
  if mostIndent < l.indent then none
  else if after.isBlank then
    if interrupts then none else some (.item marker number (width + 1) true, after)
  else if gap = 0 then none
  else if gap ≤ 4 then some (.item marker number (width + gap) false, after.skip gap)
  else some (.item marker number (width + 1) false, after.skip 1)

/-- the label of a footnote after its `[^`, which holds no blanks, and the text after it -/
def readFootnoteLabel? (s : Text) : Option (Text × Text) := do
  let (label, rest) ← Label.span? s
  if label.isEmpty || label.any isWide || Label.most < Text.byteSize label then none
  else some (label, rest)

def openFootnote? (l : Line) : Option (Container × Line) :=
  match l.inner with
  | '[' :: '^' :: s => do
    let (label, rest) ← readFootnoteLabel? s
    let ':' :: rest := rest | none
    let size := l.inner.length - rest.length
    if mostIndent < l.indent then none
    else some (.footnote (Label.normal label), (l.skipAll.drop size).skipAll)
  | _ => none

def open? (o : MarkdownSettings) (interrupts : Bool) (l : Line) : Option (Container × Line) :=
  match afterQuoteMark? l with
  | some after => some (.quote, after)
  | none =>
    openItem? interrupts l <|> (if o.footnoteDefinition then openFootnote? l else none)

/-! ## continuing -/

/-- the columns that the content of a footnote is moved by -/
def footnoteWidth : Nat := 4

/-- a container after a line that belongs to it, and the line after what continues it -/
def continue? (c : Container) (l : Line) : Option (Container × Line) :=
  match c with
  | .document => some (c, l)
  | .quote => (afterQuoteMark? l).map fun after => (c, after)
  | .item marker number width empty =>
    if l.isBlank then (if empty then none else some (c, l.skip width))
    else if l.indent < width then none
    else some (.item marker number width false, l.skip width)
  | .footnote _ =>
    if l.isBlank then some (c, l.skip footnoteWidth)
    else if l.indent < footnoteWidth then none
    else some (c, l.skip footnoteWidth)

end Container

end MarkdownModule.Markdown

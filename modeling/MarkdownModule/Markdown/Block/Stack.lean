import MarkdownModule.Markdown.Block.Start

/-!
# Open containers

The containers that are open while a document is read, from the innermost to the document itself,
and the open block in the innermost one.

A list is loose when a blank line stands between two of its items or between two blocks of one item.
A blank line at the end of an item or of a footnote stands after it: `Frame.receive` hands it on.

* `Stack.enter`      a container is opened
* `Stack.leave`      the innermost containers are closed
* `Stack.begin`      a block begins
-/

namespace MarkdownModule.Markdown

/-! ## one container -/

/-- an open container -/
structure Frame where
  container : Container
  /-- its blocks, from the last one to the first -/
  blocks : List (Block Content) := []
  /-- whether a blank line stands after its last block -/
  blank : Bool := false
  /-- whether a blank line stands between two of its blocks -/
  loose : Bool := false

namespace Frame

def begin (f : Frame) : Frame := { f with loose := f.loose || f.blank, blank := false }

/-- the container after a container begins in it: a blank line before an item that goes on with a
list makes that list loose -/
def beginContainer (f : Frame) (c : Container) : Frame :=
  match c, f.blocks with
  | .item marker _ _ _, .list m start loose items :: bs =>
    if m = marker then
      { f with blocks := .list m start (loose || f.blank) items :: bs, blank := false }
    else f.begin
  | _, _ => f.begin

/-- the blocks before an item is put to them: it goes on with a list of the same marker -/
def addItem (marker : Char) (number : Nat) (loose : Bool) (item : List (Block Content)) :
    List (Block Content) → List (Block Content)
  | .list m start l items :: bs =>
    if m = marker then .list m start (l || loose) (items ++ [item]) :: bs
    else .list marker number loose [item] :: .list m start l items :: bs
  | bs => .list marker number loose [item] :: bs

/-- the container after another one that was open in it is closed -/
def receive (f inner : Frame) : Frame :=
  let content := inner.blocks.reverse
  match inner.container with
  | .document => f
  | .quote => { f with blocks := .quote content :: f.blocks }
  | .item marker number _ _ =>
    { f with blocks := addItem marker number inner.loose content f.blocks
             blank := f.blank || inner.blank }
  | .footnote label =>
    { f with blocks := .footnote label content :: f.blocks, blank := f.blank || inner.blank }

end Frame

/-! ## all containers -/

/-- the state in which a document is read -/
structure Stack where
  /-- the innermost container -/
  top : Frame := { container := .document }
  /-- the containers around it, from the innermost to the document -/
  outer : List Frame := []
  leaf : Leaf := .closed
  /-- whether the last line underlined a heading -/
  underlined : Bool := false

namespace Stack

/-- whether the innermost container is not the document -/
def contained (s : Stack) : Bool := !s.outer.isEmpty

def add (s : Stack) (bs : List (Block Content)) : Stack :=
  { s with top := { s.top with blocks := bs.reverse ++ s.top.blocks } }

def closeLeaf (s : Stack) : Stack :=
  { s.add (s.leaf.blocks s.contained) with leaf := .closed, underlined := false }

/-- the innermost container is closed, in which no block is open -/
def pop (s : Stack) : Stack :=
  match s.outer with
  | [] => s
  | f :: fs => { s with top := f.receive s.top, outer := fs }

/-- the open block and the `n` innermost containers are closed -/
def leave (s : Stack) : Nat → Stack
  | 0 => s.closeLeaf
  | n + 1 => (s.leave n).pop

def enter (s : Stack) (c : Container) : Stack :=
  { s with top := { container := c }, outer := s.top.beginContainer c :: s.outer }

def begin (s : Stack) : Stack := { s with top := s.top.begin }

/-- the blank line after the last block; the first line of an item may be blank -/
def noteBlank (s : Stack) : Stack :=
  match s.top.container with
  | .item _ _ _ true => s
  | _ => { s with top := { s.top with blank := true } }

def forgetBlank (s : Stack) : Stack := { s with top := { s.top with blank := false } }

end Stack

end MarkdownModule.Markdown

import MarkdownModule.Markdown.Block.Container
import MarkdownModule.Markdown.Block.RawHtml
import MarkdownModule.Markdown.Block.Table
import MarkdownModule.Markdown.Inline.Scan

/-!
# Open blocks

While a document is read one block that holds no other is open: a `Leaf`.  What it holds is known
when it is closed.

* `Content.ofLines`   the text of lines
* `Leaf.blocks`       the blocks that an open block comes to
-/

namespace MarkdownModule.Markdown

/-! ## texts of lines -/

/-- the text of lines that are given from the last one to the first -/
def Content.ofLines (lines : List Line) : Content :=
  { text := List.intercalate ['\n'] (lines.reverse.map (·.text))
    lineEnds := (lines.drop 1).reverse.map (·.stop) }

def Content.cutDefinitions (c : Content) : List Definition × Content :=
  let (ds, rest) := Definition.readAll c.text
  (ds, { text := rest, lineEnds := c.lineEnds.drop (c.lineEnds.length - rest.count '\n') })

/-! ## open blocks -/

/-- the open block; lines are given from the last one to the first -/
inductive Leaf where
  /-- no block is open -/
  | closed
  | paragraph (lines : List Line)
  /-- code that is moved to the right, and the number of blank lines after it -/
  | indentedCode (lines : List Text) (blanks : Nat)
  | fenced (f : Fence) (lines : List Text)
  | html (k : RawHtml) (lines : List Text)
  | table (columns : List Alignment) (head : List Text) (rows : List (List Text))

namespace Leaf

def isParagraph : Leaf → Bool
  | .paragraph _ => true
  | _ => false

/-- whether a block is open in which no container begins -/
def isSolid : Leaf → Bool
  | .fenced _ _ => true
  | .html _ _ => true
  | _ => false

def cell (s : Text) : Content := { text := s }

/-- the blocks of a paragraph: the definitions at its start, and what is left of it -/
def paragraphBlocks (lines : List Line) : List (Block Content) :=
  let (ds, rest) := (Content.ofLines lines).cutDefinitions
  ds.map .definition ++ (if rest.text.isEmpty then [] else [.paragraph rest])

/-- the text of a fence that was not closed: in a container each of its lines has its line ending -/
def unclosedText (contained : Bool) (lines : List Text) : Text :=
  if contained then Fence.closedText lines else Fence.openText lines

/-- the blocks that an open block comes to; `contained` tells whether it is in a container -/
def blocks (contained : Bool) : Leaf → List (Block Content)
  | .closed => []
  | .paragraph lines => paragraphBlocks lines
  | .indentedCode lines _ => [.code [] (Fence.openText lines.reverse)]
  | .fenced f lines => [f.block (unclosedText contained lines.reverse)]
  | .html _ lines => [.html (List.intercalate ['\n'] lines.reverse)]
  | .table columns head rows =>
    [.table columns (head.map cell) (rows.reverse.map (·.map cell))]

/-- the open block at the end of a document that ends with a line ending: one that goes on over
blank lines has one more of them -/
def afterLast : Leaf → Leaf
  | .fenced f lines => .fenced f ([] :: lines)
  | .html k lines => if k.endsAtBlank then .html k lines else .html k ([] :: lines)
  | l => l

end Leaf

end MarkdownModule.Markdown

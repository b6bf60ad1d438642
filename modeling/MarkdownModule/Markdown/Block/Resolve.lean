import MarkdownModule.Markdown.Block
import MarkdownModule.Markdown.Inline.Mail

/-!
# The inline content of blocks

When all blocks of a document are known, so are the definitions that its texts may refer to.

* `Scope.ofBlocks`    what the texts of a document may refer to
* `Scope.resolve`     blocks with the inline content of their texts
-/

namespace MarkdownModule.Markdown

/-- a block with its inline content -/
abbrev Resolved := Block (List Inline)

namespace Scope

/-- what the texts of a document may refer to -/
def ofBlocks (o : MarkdownSettings) (bs : List (Block Content)) : Scope where
  settings := o
  definitions := Block.definitionsIn bs
  footnotes := Block.footnotesIn bs

def readCell (e : Scope) (c : Content) : List Inline := { e with inTable := true }.read false c

mutual

/-- a block with the inline content of its texts; `opens` tells whether it is the first one of an
item -/
def resolveBlock (e : Scope) (opens : Bool) : Block Content → Resolved
  | .thematicBreak => .thematicBreak
  | .heading level c => .heading level (e.read false c)
  | .paragraph c => .paragraph (e.read opens c)
  | .code language s => .code language s
  | .formula s => .formula s
  | .html s => .html s
  | .quote inner => .quote (resolveRow e false inner)
  | .list marker start loose items => .list marker start loose (resolveItems e items)
  | .table columns head rows =>
    .table columns (head.map e.readCell) (rows.map (·.map e.readCell))
  | .definition d => .definition d
  | .footnote label inner => .footnote label (resolveRow e false inner)

/-- a row of blocks with the inline content of their texts; definitions may come before the first
block of an item -/
def resolveRow (e : Scope) (opens : Bool) : List (Block Content) → List Resolved
  | [] => []
  | b :: bs => resolveBlock e opens b :: resolveRow e (opens && b.isDefinition) bs

def resolveItems (e : Scope) : List (List (Block Content)) → List (List Resolved)
  | [] => []
  | i :: is => resolveRow e true i :: resolveItems e is

end

def resolve (o : MarkdownSettings) (bs : List (Block Content)) : List Resolved :=
  resolveRow (ofBlocks o bs) false bs

end Scope

end MarkdownModule.Markdown

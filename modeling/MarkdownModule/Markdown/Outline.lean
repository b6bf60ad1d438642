import MarkdownModule.Markdown.Block.Resolve
import MarkdownModule.Text.Bytes

/-!
# The outline of a document and its line breaks

The outline of a document is the tree of its parts, in which texts have places.  A line ending in a
text of a paragraph is made a line break by a backslash before it.

* `Node.lineEnds`   the places of the line endings in the texts of paragraphs
* `hardBreaks?`     a document with a backslash before each of them, put together from its parts
* `hardBreaks`      the same document, character by character
* `outline`         the outline of the blocks of a document
-/

namespace MarkdownModule.Markdown

inductive Node where
  /-- a text, between two places in the document that are counted in bytes -/
  | text (place : Option (Nat × Nat))
  | paragraph (inner : List Node)
  /-- any other part -/
  | part (inner : List Node)

/-! ## line endings -/

/-- the places of the line endings in a text that stands at a place -/
def lineEndsFrom : Nat → Text → List Nat
  | _, [] => []
  | i, c :: r =>
    if c = '\n' then i :: lineEndsFrom (i + c.utf8Size) r else lineEndsFrom (i + c.utf8Size) r

/-- the places of the line endings between two places, if a text stands between them -/
def lineEndsIn (source : Text) (place : Option (Nat × Nat)) : List Nat :=
  match place with
  | none => []
  | some (start, stop) => ((Text.slice? start stop source).map (lineEndsFrom start)).getD []

mutual

/-- the places of the line endings in the texts of paragraphs; `inParagraph` tells whether the part
is in a paragraph -/
def Node.lineEnds (source : Text) (inParagraph : Bool) : Node → List Nat
  | .text place => if inParagraph then lineEndsIn source place else []
  | .paragraph inner => lineEndsInRow source true inner
  | .part inner => lineEndsInRow source inParagraph inner

def lineEndsInRow (source : Text) (inParagraph : Bool) : List Node → List Nat
  | [] => []
  | n :: ns => n.lineEnds source inParagraph ++ lineEndsInRow source inParagraph ns

end

/-- a text that stands at a place, with a backslash before each of the places `places` -/
def breakAt (places : List Nat) : Nat → Text → Text
  | _, [] => []
  | i, c :: r =>
    if places.contains i then '\\' :: c :: breakAt places (i + c.utf8Size) r
    else c :: breakAt places (i + c.utf8Size) r

/-- a document with a backslash before each line ending in a text of a paragraph -/
def hardBreaks (source : Text) (tree : Node) : Text :=
  breakAt (tree.lineEnds source false) 0 source

/-- places in their order with one more place, which is there once -/
def putInOrder (place : Nat) : List Nat → List Nat
  | [] => [place]
  | p :: ps =>
    if place < p then place :: p :: ps
    else if place = p then p :: ps
    else p :: putInOrder place ps

/-- places in their order, each of them once -/
def inOrder (places : List Nat) : List Nat := places.foldr putInOrder []

/-- a document from a place on, cut at each of the places `places`, with a backslash at each cut;
nothing when a cut goes back, is out of range or is inside of a character -/
def splice? (source : Text) : Nat → List Nat → Option Text
  | last, [] => Text.dropBytes? last source
  | last, place :: places =>
    (Text.slice? last place source).bind fun part =>
      (splice? source place places).map fun rest => part ++ '\\' :: rest

/-- a document cut at the line endings in the texts of paragraphs, with a backslash at each cut -/
def hardBreaks? (source : Text) (tree : Node) : Option Text :=
  splice? source 0 (inOrder (tree.lineEnds source false))

/-! ## outlines -/

mutual

/-- the outline of inline content: of its texts, the line endings have places -/
def Inline.outline : Inline → Node
  | .text _ => .text none
  | .decoded _ => .text none
  | .softBreak place => .text (some (place, place + 1))
  | .emphasis inner => .part (outlineInlines inner)
  | .strong inner => .part (outlineInlines inner)
  | .struck inner => .part (outlineInlines inner)
  | .link _ _ inner => .part (outlineInlines inner)
  | _ => .part []

def outlineInlines : List Inline → List Node
  | [] => []
  | i :: is => i.outline :: outlineInlines is

end

/-- the outline of the content of a paragraph: a line ending right after a check box ends the mark of
that box and is in no text -/
def outlineParagraph : List Inline → List Node
  | .checkBox _ :: .softBreak _ :: is => outlineInlines is
  | is => outlineInlines is

mutual

def outlineBlock : Resolved → Node
  | .heading _ content => .part (outlineInlines content)
  | .paragraph content => .paragraph (outlineParagraph content)
  | .quote inner => .part (outlineBlocks inner)
  | .list _ _ _ items => .part (outlineItems items)
  | .footnote _ inner => .part (outlineBlocks inner)
  | _ => .part []

def outlineBlocks : List Resolved → List Node
  | [] => []
  | b :: bs => outlineBlock b :: outlineBlocks bs

def outlineItems : List (List Resolved) → List Node
  | [] => []
  | i :: is => .part (outlineBlocks i) :: outlineItems is

end

def outline (bs : List Resolved) : Node := .part (outlineBlocks bs)

end MarkdownModule.Markdown

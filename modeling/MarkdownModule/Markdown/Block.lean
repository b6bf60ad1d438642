import MarkdownModule.Markdown.Definition

/-!
# Blocks

What a document is made of.  A block is first read with the texts that it holds as they are written,
and then with their inline content.
-/

namespace MarkdownModule.Markdown

inductive Alignment where
  | unset
  | left
  | center
  | right
deriving DecidableEq

/-- a block whose texts are of type `α` -/
inductive Block (α : Type) where
  /-- a rule between two parts of the document -/
  | thematicBreak
  | heading (level : Nat) (content : α)
  | paragraph (content : α)
  /-- code, of a language if that is given -/
  | code (language : Text) (text : Text)
  | formula (text : Text)
  | html (text : Text)
  | quote (inner : List (Block α))
  /-- a list: the character that marks its items, the number of the first one if they are numbered,
  whether it is loose, and its items -/
  | list (marker : Char) (start : Nat) (loose : Bool) (items : List (List (Block α)))
  | table (columns : List Alignment) (head : List α) (rows : List (List α))
  | definition (d : Definition)
  | footnote (label : Text) (inner : List (Block α))

namespace Block

variable {α : Type}

def isDefinition : Block α → Bool
  | .definition _ => true
  | _ => false

mutual

/-- the definitions in a block, in their order -/
def definitions : Block α → List Definition
  | .definition d => [d]
  | .quote inner => definitionsIn inner
  | .list _ _ _ items => definitionsInItems items
  | .footnote _ inner => definitionsIn inner
  | _ => []

def definitionsIn : List (Block α) → List Definition
  | [] => []
  | b :: bs => b.definitions ++ definitionsIn bs

def definitionsInItems : List (List (Block α)) → List Definition
  | [] => []
  | i :: is => definitionsIn i ++ definitionsInItems is

end

mutual

/-- the labels of the footnotes in a block, in their order -/
def footnotes : Block α → List Text
  | .quote inner => footnotesIn inner
  | .list _ _ _ items => footnotesInItems items
  | .footnote label inner => label :: footnotesIn inner
  | _ => []

def footnotesIn : List (Block α) → List Text
  | [] => []
  | b :: bs => b.footnotes ++ footnotesIn bs

def footnotesInItems : List (List (Block α)) → List Text
  | [] => []
  | i :: is => footnotesIn i ++ footnotesInItems is

end

end Block

end MarkdownModule.Markdown

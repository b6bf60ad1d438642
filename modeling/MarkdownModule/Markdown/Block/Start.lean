import MarkdownModule.Markdown.Block.Leaf

/-!
# Lines that begin a block

* `Start.ofLine?`   what a line begins that may also end a paragraph
-/

namespace MarkdownModule.Markdown

inductive Start where
  | fence (f : Fence)
  | html (k : RawHtml)
  | heading (level : Nat) (text : Text)
  | rule

/-- what a line begins, other than code that is moved to the right, a table and a paragraph; `lone`
tells whether any tag alone on its line counts -/
def Start.ofLine? (o : MarkdownSettings) (lone : Bool) (l : Line) : Option Start :=
  match Fence.open? o l with
  | some f => some (.fence f)
  | none =>
    match if o.htmlFlow then RawHtml.open? lone l else none with
    | some k => some (.html k)
    | none =>
      match readHeading? l with
      | some (level, text) => some (.heading level text)
      | none => if isRule l then some .rule else none

end MarkdownModule.Markdown

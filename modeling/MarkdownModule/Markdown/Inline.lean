import MarkdownModule.Text.Basic

/-!
# Inline content

What a paragraph, a heading or the cell of a table holds.
-/

namespace MarkdownModule.Markdown

/-- a part of a paragraph, a heading or a cell -/
inductive Inline where
  /-- characters that stand for themselves -/
  | text (s : Text)
  /-- what an escape or a reference stands for -/
  | decoded (s : Text)
  /-- a line ending, and its place in the document in bytes -/
  | softBreak (place : Nat)
  /-- a line ending that is a line break -/
  | hardBreak
  | code (s : Text)
  | formula (s : Text)
  | html (s : Text)
  | emphasis (inner : List Inline)
  | strong (inner : List Inline)
  | struck (inner : List Inline)
  | link (destination : Text) (title : Option Text) (inner : List Inline)
  | image (destination : Text) (title : Option Text) (inner : List Inline)
  /-- an address between angle brackets -/
  | autolink (destination shown : Text)
  /-- an address that stands in the text -/
  | bareLink (destination shown : Text)
  | footnoteCall (label : Text)
  | checkBox (checked : Bool)

end MarkdownModule.Markdown

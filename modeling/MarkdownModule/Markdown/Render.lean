import MarkdownModule.Markdown.Block.Write
import MarkdownModule.Markdown.Document
import MarkdownModule.Markdown.Outline

/-!
# Rendering

The built-in renderer turns Markdown into HTML.  Line endings of every kind are read as one, and
what is written is empty or ends with a line ending.

* `Markdown.render`   a document in HTML
-/

namespace MarkdownModule.Markdown

def unifyLineEnds : Text → Text
  | [] => []
  | '\r' :: '\n' :: r => '\n' :: unifyLineEnds r
  | '\r' :: r => '\n' :: unifyLineEnds r
  | c :: r => c :: unifyLineEnds r

def parse (o : MarkdownSettings) (source : Text) : List Resolved :=
  Scope.resolve o (readDocument o source)

/-- the document that is rendered: with line breaks wanted, each line ending in a text of a paragraph
is one -/
def prepare (o : RendererOptions) (body : Text) : Text :=
  let source := unifyLineEnds body
  if o.breaks.getD false then (hardBreaks? source (outline (parse o.settings source))).getD source
  else source

/-- a text with a line feed at its end, if it is not empty -/
def closeText (s : Text) : Text := if s.isEmpty || Text.endsWith '\n' s then s else s ++ ['\n']

def render (o : RendererOptions) (body : Text) : Text :=
  closeText (writeDocument o.settings (parse o.settings (prepare o body)))

end MarkdownModule.Markdown

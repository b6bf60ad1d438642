import MarkdownModule.Error
import MarkdownModule.Markdown.Render

/-!
# Renderers

A caller may bring a render function or a renderer instance, or set options of the built-in
renderer; `RenderChannel.resolve` says which of them is used and what excludes what.
-/

namespace MarkdownModule

/-- a function of the caller: its result, or its words about a failure -/
abbrev Collaborator := Text → Except Text Text

inductive RenderChannel where
  | function (render : Collaborator)
  | renderer (render : Text → Except LoadError Text)
  | builtin (options : RendererOptions)

namespace RenderChannel

/-- the renderer for what a caller gives: a function excludes an instance, and both exclude options
that are set -/
def resolve (function : Option Collaborator) (inst : Option (Text → Except LoadError Text))
    (options : Option RendererOptions) : Except LoadError RenderChannel :=
  let set := options.any (!·.isEmpty)
  match function, inst with
  | some _, some _ => .error (.conflictingRenderers .renderer)
  | some f, none => if set then .error (.conflictingRenderers .options) else .ok (.function f)
  | none, some r =>
    if set then .error (.conflictingRenderers .optionsBesideRenderer) else .ok (.renderer r)
  | none, none => .ok (.builtin (options.getD {}))

def name : RenderChannel → Text
  | .function _ => "function".toList
  | .renderer _ => "instance".toList
  | .builtin _ => "options".toList

def describe (c : RenderChannel) : Text := "RenderConfig(\"".toList ++ c.name ++ "\")".toList

def render (c : RenderChannel) (body : Text) : Except LoadError Text :=
  match c with
  | .function f => (f body).mapError .renderer
  | .renderer r => r body
  | .builtin o => .ok (Markdown.render o body)

end RenderChannel

end MarkdownModule

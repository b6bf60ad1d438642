import MarkdownModule.Framework.Component
import MarkdownModule.Frontmatter
import MarkdownModule.Options.Loader
import MarkdownModule.Render.Channel

/-!
# Loading documents

A loader turns documents into modules.  `Loader.build` checks what a caller gives once; the loader
then loads any number of documents, each on its own.

* `Loader.build`  conflicts between renderers come first, then missing compilers
* `Loader.load`   the module of a document, or the first failure: frontmatter, renderer, frameworks
-/

namespace MarkdownModule

/-- the functions that a caller brings -/
structure Collaborators where
  renderFunction : Option Collaborator := none
  renderer : Option (Text → Except LoadError Text) := none
  vueCompiler : Option Collaborator := none
  reactCompiler : Option Collaborator := none

structure Loader where
  modes : ModeSet
  channel : RenderChannel
  /-- the active frameworks, in the order of their exports -/
  frameworks : List FrameworkBackend
  registry : ComponentRegistry

structure LoadOutput where
  /-- the text of the module -/
  code : Text
  /-- the exported names, in order -/
  exports : List Text
  attributes : Json.Value
  /-- the components that the document refers to, if a framework is active -/
  components : List ComponentReference

namespace Loader

/-! ## building -/

def backend? (modes : ModeSet) (f : Framework) (o : FrameworkOptions)
    (compiler : Option Collaborator) : Except LoadError (List FrameworkBackend) :=
  if modes.contains f.mode then
    match compiler with
    | some c => .ok [⟨f, o.rootClass, c⟩]
    | none => .error (.missingCompiler f.mode)
  else .ok []

def build (o : LoaderOptions) (c : Collaborators) : Except LoadError Loader := do
  let channel ← RenderChannel.resolve c.renderFunction c.renderer o.renderer
  let vue ← backend? o.modes .vue o.vue c.vueCompiler
  let react ← backend? o.modes .react o.react c.reactCompiler
  .ok ⟨o.modes, channel, vue ++ react, o.registry⟩

/-! ## loading -/

/-- the module with the component of every framework -/
def addFrameworks (html : Text) (rs : List ComponentReference) :
    List FrameworkBackend → Script.Module → Except LoadError Script.Module
  | [], m => .ok m
  | b :: bs, m => do addFrameworks html rs bs (← b.addComponent m html rs)

/-- the rendered body, if some mode needs it -/
def html? (l : Loader) (body : Text) : Except LoadError (Option Text) :=
  if l.modes.needsHtml then (l.channel.render body).map some else .ok none

/-- the module with the exports that need no framework -/
def addPlain (l : Loader) (e : Frontmatter.Extraction) (html : Option Text) (path : Text) :
    Script.Module :=
  let m := Script.Module.empty.addAttributes e.attributes
  let m := match html with
    | some h => if l.modes.contains .html then m.addHtml h else m
    | none => m
  let m := if l.modes.contains .body then m.addBody e.body else m
  if l.modes.contains .fileMeta then m.addMeta path else m

/-- the module of a document whose path is only reported -/
def load (l : Loader) (source path : Text) : Except LoadError LoadOutput := do
  let e ← (Frontmatter.extract source).mapError .frontmatter
  let html ← l.html? e.body
  let m := l.addPlain e html path
  match html with
  | some h =>
    if l.frameworks.isEmpty then .ok ⟨m.code, m.exportNames, e.attributes, []⟩
    else
      let rs := ComponentReference.scan h
      let m ← addFrameworks h rs l.frameworks (m.addComponents l.registry rs)
      .ok ⟨m.code, m.exportNames, e.attributes, rs⟩
  | none => .ok ⟨m.code, m.exportNames, e.attributes, []⟩

end Loader

end MarkdownModule

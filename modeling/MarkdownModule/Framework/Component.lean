import MarkdownModule.Component.Reference
import MarkdownModule.Error
import MarkdownModule.Html.CodeMark
import MarkdownModule.Html.Reference
import MarkdownModule.Jsx.Convert
import MarkdownModule.Render.Channel
import MarkdownModule.Script.Binding
import MarkdownModule.Script.Module

/-!
# Components of a framework

A rendered document becomes a component in three steps: it is made into a template, the caller's
compiler turns the template into an expression, and the expression is exported.

* `Framework.template`       the template of a document
* `Framework.addComponent`   the module with the component of a document
-/

namespace MarkdownModule

inductive Framework where
  | vue
  | react
deriving DecidableEq

/-- a framework with what a caller gives for it -/
structure FrameworkBackend where
  framework : Framework
  rootClass : Text
  compile : Collaborator

namespace Framework

def mode : Framework → Mode
  | .vue => .vue
  | .react => .react

/-! ## templates -/

/-- the attribute that keeps a template compiler out of an element -/
def verbatimMark : Text := "v-pre".toList

def classAttribute (rootClass : Text) : Text :=
  if rootClass.contains '"' then
    "className=".toList ++ Jsx.container (Script.stringLiteral rootClass)
  else "className=\"".toList ++ rootClass ++ ['"']

def template (f : Framework) (rootClass html : Text) : Except LoadError Text :=
  match f with
  | .vue => do
    let marked ← (Html.markCode verbatimMark html).mapError (.markup ·.message)
    .ok ("<div class=\"".toList ++ Html.encodeDoubleQuoted rootClass ++ "\">".toList ++ marked
      ++ "</div>".toList)
  | .react =>
    .ok ("<div ".toList ++ classAttribute rootClass ++ ['>'] ++ Jsx.ofHtml html
      ++ "</div>".toList)

/-! ## exports -/

/-- how a component is registered: by its Pascal name, with its binding when that differs -/
def registration (r : ComponentReference) : Text :=
  let binding := Script.bindingFor r.pascal
  if binding = r.pascal then r.pascal else r.pascal ++ ": ".toList ++ binding

def registrations (rs : List ComponentReference) : Text :=
  let entries := ", ".toList.intercalate (rs.map registration)
  if entries.isEmpty then "\x7b\x7d".toList
  else "\x7b ".toList ++ entries ++ " \x7d".toList

def vueExpression (rs : List ComponentReference) : Text :=
  "\x7b render: ".toList ++ Script.renderBinding ++ ", component: \x7b name: ".toList
    ++ Script.stringLiteral Script.componentName ++ ", components: ".toList ++ registrations rs
    ++ ", render: ".toList ++ Script.renderBinding ++ " \x7d \x7d".toList

def reactExpression (compiled : Text) : Text :=
  "function ".toList ++ Script.componentName ++ "(props) \x7b return ".toList ++ compiled
    ++ "; \x7d".toList

def addCompiled (f : Framework) (m : Script.Module) (compiled : Text)
    (rs : List ComponentReference) : Script.Module :=
  match f with
  | .vue =>
    (m.addStatement ("const ".toList ++ Script.renderBinding ++ " = ".toList ++ compiled
      ++ [';'])).addExport "vue".toList (vueExpression rs)
  | .react =>
    (m.addImport (Script.Module.defaultImport Script.reactBinding "react".toList)).1.addExport
      "react".toList (reactExpression compiled)

end Framework

def FrameworkBackend.compiled (b : FrameworkBackend) (html : Text) : Except LoadError Text := do
  let template ← b.framework.template b.rootClass html
  (b.compile template).mapError .template

def FrameworkBackend.addComponent (b : FrameworkBackend) (m : Script.Module) (html : Text)
    (rs : List ComponentReference) : Except LoadError Script.Module :=
  (b.compiled html).map fun compiled => b.framework.addCompiled m compiled rs

end MarkdownModule

import MarkdownModule.Component.Registry
import MarkdownModule.Error
import MarkdownModule.Options.Renderer

/-!
# Options of a loader

`LoaderOptions.parse` reads the options from JSON, and `LoaderOptions.toJson` writes them.
-/

namespace MarkdownModule

structure FrameworkOptions where
  /-- the class of the outermost element -/
  root : Option Text := none
deriving DecidableEq

structure LoaderOptions where
  /-- the tokens of the modes -/
  mode : Option (List Text) := none
  renderer : Option RendererOptions := none
  /-- the start of the path of every component that has no definition -/
  pathStart : Option Text := none
  components : List ComponentDefinition := []
  vue : FrameworkOptions := {}
  react : FrameworkOptions := {}
deriving DecidableEq

/-! ## effective values -/

def defaultRootClass : Text := "frontmatter-markdown".toList

def FrameworkOptions.rootClass (o : FrameworkOptions) : Text := o.root.getD defaultRootClass

namespace LoaderOptions

def modes (o : LoaderOptions) : ModeSet := .resolve o.mode

/-- the start of the path of every component that has no definition -/
def effectivePathStart (o : LoaderOptions) : Text :=
  o.pathStart.getD ComponentRegistry.defaultPathStart

def registry (o : LoaderOptions) : ComponentRegistry := ⟨o.components, o.effectivePathStart⟩

end LoaderOptions

/-! ## reading -/

def ExportKind.token : ExportKind → Text
  | .default => "default".toList
  | .named => "named".toList

def ExportKind.ofToken? (t : Text) : Option ExportKind :=
  if t = ExportKind.default.token then some .default
  else if t = ExportKind.named.token then some .named
  else none

/-- an export kind: its token, or an object whose one member has the token as key and is null -/
def ExportKind.ofForm? : Json.Form → Option ExportKind
  | .string us => (Json.unitsText? us).bind ofToken?
  | .object [(us, .null)] => (Json.unitsText? us).bind ofToken?
  | _ => none

def FrameworkOptions.ofForm? (f : Json.Form) : Option FrameworkOptions := do
  let r ← Json.Record.read? ["root"] f
  some { root := ← r.field? "root" (Json.Form.optional? Json.Form.text?) none }

def ComponentDefinition.ofForm? (f : Json.Form) : Option ComponentDefinition := do
  let r ← Json.Record.read? ["name", "modulePath", "exportType"] f
  some {
    name := ← r.need? "name" Json.Form.text?
    modulePath := ← r.need? "modulePath" Json.Form.text?
    exportKind := ← r.field? "exportType" ExportKind.ofForm? .default }

def ComponentDefinition.parseList? (s : Text) : Option (List ComponentDefinition) :=
  (Json.parseForm? s).bind (Json.Form.list? ComponentDefinition.ofForm?)

namespace LoaderOptions

/-- the names of the options, in the order of their declaration -/
def fieldNames : List String :=
  ["mode", "markdownRendererOptions", "componentImportPrefix", "components", "vue", "react"]

def ofForm? (f : Json.Form) : Option LoaderOptions := do
  let r ← Json.Record.read? fieldNames f
  some {
    mode := ← r.field? "mode" (Json.Form.optional? (Json.Form.list? Json.Form.text?)) none
    renderer :=
      ← r.field? "markdownRendererOptions" (Json.Form.optional? RendererOptions.ofForm?) none
    pathStart := ← r.field? "componentImportPrefix" (Json.Form.optional? Json.Form.text?) none
    components := ← r.field? "components" (Json.Form.list? ComponentDefinition.ofForm?) []
    vue := ← r.field? "vue" FrameworkOptions.ofForm? {}
    react := ← r.field? "react" FrameworkOptions.ofForm? {} }

def parse (s : Text) : Except LoadError LoaderOptions :=
  match Json.parseForm? s with
  | none => .error (.config "the text is not JSON".toList)
  | some f =>
    match ofForm? f with
    | none => .error (.config "the value does not describe loader options".toList)
    | some o => .ok o

end LoaderOptions

/-! ## writing -/

def ComponentDefinition.toJson (d : ComponentDefinition) : Json.Value :=
  .ofFields
    [("name", .string d.name), ("modulePath", .string d.modulePath),
     ("exportType", .string d.exportKind.token)]

def FrameworkOptions.toJson (o : FrameworkOptions) : Json.Value :=
  .ofFields [("root", .ofText? o.root)]

/-- the options as a JSON value, the unset ones null -/
def LoaderOptions.toJson (o : LoaderOptions) : Json.Value :=
  .ofFields
    [("mode", (o.mode.map fun ts => .array (ts.map .string)).getD .null),
     ("markdownRendererOptions", (o.renderer.map RendererOptions.toJson).getD .null),
     ("componentImportPrefix", .ofText? o.pathStart),
     ("components", .array (o.components.map ComponentDefinition.toJson)),
     ("vue", o.vue.toJson), ("react", o.react.toJson)]

end MarkdownModule

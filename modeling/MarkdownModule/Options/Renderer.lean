import MarkdownModule.Options.Record

/-!
# Options of the built-in renderer

Every option may be left unset.  `RendererOptions.settings` gives each its effective value.
-/

namespace MarkdownModule

/-- what a caller sets of the built-in renderer -/
structure RendererOptions where
  /-- whether raw HTML is passed through -/
  html : Option Bool := none
  /-- whether GitHub Flavored Markdown is read -/
  gfm : Option Bool := none
  /-- whether bare addresses become links -/
  linkify : Option Bool := none
  /-- whether links may have any protocol -/
  dangerousProtocol : Option Bool := none
  /-- whether formulas are read -/
  mathSyntax : Option Bool := none
  /-- whether each line ending of a paragraph is a line break -/
  breaks : Option Bool := none
deriving DecidableEq

namespace RendererOptions

def isEmpty (o : RendererOptions) : Bool := o == {}

def fieldNames : List String :=
  ["html", "gfm", "linkify", "dangerousProtocol", "mathSyntax", "breaks"]

def ofForm? (f : Json.Form) : Option RendererOptions := do
  let r ← Json.Record.read? fieldNames f
  let flag name := r.field? name (Json.Form.optional? Json.Form.bool?) none
  some {
    html := ← flag "html"
    gfm := ← flag "gfm"
    linkify := ← flag "linkify"
    dangerousProtocol := ← flag "dangerousProtocol"
    mathSyntax := ← flag "mathSyntax"
    breaks := ← flag "breaks" }

def parse? (s : Text) : Option RendererOptions := (Json.parseForm? s).bind ofForm?

def toJson (o : RendererOptions) : Json.Value :=
  .ofFields
    [("html", .ofBool? o.html), ("gfm", .ofBool? o.gfm), ("linkify", .ofBool? o.linkify),
     ("dangerousProtocol", .ofBool? o.dangerousProtocol), ("mathSyntax", .ofBool? o.mathSyntax),
     ("breaks", .ofBool? o.breaks)]

end RendererOptions

/-! ## effective settings -/

/-- what a document may hold, and what may be written for it -/
structure MarkdownSettings where
  /-- whether blocks of raw HTML are read -/
  htmlFlow : Bool := true
  htmlText : Bool := true
  rawHtml : Bool := true
  anyProtocol : Bool := false
  autolinkLiteral : Bool := false
  footnoteDefinition : Bool := false
  footnoteCall : Bool := false
  strikethrough : Bool := false
  table : Bool := false
  taskListItem : Bool := false
  mathFlow : Bool := false
  mathText : Bool := false
  /-- whether one dollar sign opens a formula in text -/
  singleDollar : Bool := false
deriving DecidableEq

def RendererOptions.settings (o : RendererOptions) : MarkdownSettings :=
  let html := o.html.getD true
  let gfm := o.gfm.getD true
  let math := o.mathSyntax.getD false
  { htmlFlow := html
    htmlText := html
    rawHtml := html
    anyProtocol := o.dangerousProtocol.getD false
    autolinkLiteral := gfm && o.linkify.getD false
    footnoteDefinition := gfm
    footnoteCall := gfm
    strikethrough := gfm
    table := gfm
    taskListItem := gfm
    mathFlow := math
    mathText := math
    singleDollar := math }

end MarkdownModule

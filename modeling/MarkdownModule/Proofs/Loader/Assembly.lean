import MarkdownModule.Loader
import MarkdownModule.Proofs.Script.ImportKey
import MarkdownModule.Proofs.Script.Run
import MarkdownModule.Proofs.Yaml.Value

/-!
# The module of a document

`Loader.Parts` is what a document gives: its frontmatter and body, the rendered body and the
compiled templates.  `Loader.Parts.output` is the module with these parts, for the modes of a loader.

* `Loader.Parts.decode?_meta`   the literals of the parts denote the parts
* `Loader.load_eq_output`       loading a document gives the module with its parts
-/

namespace MarkdownModule

theorem Mode.exportName_ne_attributes (m : Mode) : m.exportName ≠ "attributes".toList := by
  cases m <;> decide

theorem Mode.exportName_inj {m n : Mode} (h : m.exportName = n.exportName) : m = n := by
  revert h
  cases m <;> cases n <;> decide

theorem ModeSet.needsHtml_of_contains {s : ModeSet} {m : Mode} (hm : m ≠ .body ∧ m ≠ .fileMeta)
    (h : s.contains m = true) : s.needsHtml = true := by
  obtain ⟨html, body, fileMeta, vue, react⟩ := s
  cases m with
  | html => simp_all [contains, needsHtml]
  | body => exact absurd rfl hm.1
  | fileMeta => exact absurd rfl hm.2
  | vue => simp_all [contains, needsHtml]
  | react => simp_all [contains, needsHtml]

theorem ModeSet.of_not_needsHtml {s : ModeSet} (h : s.needsHtml = false) :
    s.contains .html = false ∧ s.contains .vue = false ∧ s.contains .react = false := by
  obtain ⟨h', hr⟩ := Bool.or_eq_false_iff.1 h
  obtain ⟨hh, hv⟩ := Bool.or_eq_false_iff.1 h'
  exact ⟨hh, hv, hr⟩

namespace Loader

/-- what a document gives for its module -/
structure Parts where
  /-- the frontmatter, and the text after it -/
  extraction : Frontmatter.Extraction
  html : Text
  /-- the compiled template of the Vue component -/
  vue : Text
  /-- the compiled template of the React component -/
  react : Text

namespace Parts

section
variable (p : Parts) (o : LoaderOptions) (path : Text)

def expression : Mode → Text
  | .html => Script.stringLiteral p.html
  | .body => Script.stringLiteral p.extraction.body
  | .fileMeta => "\x7b \"resourcePath\": ".toList ++ Script.stringLiteral path ++ " \x7d".toList
  | .vue => Framework.vueExpression (ComponentReference.scan p.html)
  | .react => Framework.reactExpression p.react

/-- the exports for the frontmatter and for the active ones of some modes -/
def exportsFor (ms : List Mode) : List (Text × Text) :=
  ("attributes".toList, Script.valueLiteral p.extraction.attributes) ::
    (ms.filter o.modes.contains).map fun m => (m.exportName, p.expression path m)

/-- the components that the document refers to, if a framework is active -/
def references : List ComponentReference :=
  if o.modes.frameworks.isEmpty then [] else ComponentReference.scan p.html

/-- the import statements of the components, without those whose key has occurred before -/
def componentImports : List Text :=
  firstsBy Script.importKey ((p.references o).map fun r => (o.registry.resolve r).statement)

/-- the import statements: those of the components, then the one of React -/
def imports : List Text :=
  p.componentImports o ++ if o.modes.contains .react then [Script.reactImport] else []

/-- the constant that holds the compiled template of the Vue component -/
def statements : List Text :=
  if o.modes.contains .vue then ["const __vueRender = ".toList ++ p.vue ++ ";".toList] else []

def lines : List Text :=
  p.imports o ++ p.statements o ++ (p.exportsFor o path Mode.all).map fun e =>
    "export const ".toList ++ e.1 ++ " = ".toList ++ e.2 ++ ";".toList

def output : LoadOutput where
  code := (p.lines o path).flatMap (· ++ ['\n'])
  exports := "attributes".toList :: o.modes.toList.map Mode.exportName
  attributes := p.extraction.attributes
  components := p.references o

end

/-- the parts are those of a document, for the options and the functions of a caller -/
structure Of (p : Parts) (o : LoaderOptions) (c : Collaborators) (source : Text) : Prop where
  extraction : Frontmatter.extract source = .ok p.extraction
  html : o.modes.needsHtml = true → ∃ channel,
    RenderChannel.resolve c.renderFunction c.renderer o.renderer = .ok channel ∧
      channel.render p.extraction.body = .ok p.html
  vue : o.modes.contains .vue = true → ∃ compile, c.vueCompiler = some compile ∧
    (⟨.vue, o.vue.rootClass, compile⟩ : FrameworkBackend).compiled p.html = .ok p.vue
  react : o.modes.contains .react = true → ∃ compile, c.reactCompiler = some compile ∧
    (⟨.react, o.react.rootClass, compile⟩ : FrameworkBackend).compiled p.html = .ok p.react

/-! ## literals -/

theorem decode?_attributes {p : Parts} {o : LoaderOptions} {c : Collaborators} {source : Text}
    (hp : p.Of o c source) :
    Json.decode? (Script.valueLiteral p.extraction.attributes) = some p.extraction.attributes :=
  Json.decode?_write Script.readsBack_escapeChar (Frontmatter.wellFormed_extract hp.extraction)

theorem decode?_stringLiteral (s : Text) :
    Json.decode? (Script.stringLiteral s) = some (.string s) :=
  Json.decode?_quote Script.readsBack_escapeChar s

theorem decode?_meta (p : Parts) (path : Text) :
    Json.decode? (p.expression path .fileMeta) =
      some (.object [("resourcePath".toList, .string path)]) := by
  have hkey : "\x7b \"resourcePath\": ".toList =
      '\x7b' :: ' ' :: (Json.quote Script.escapeChar "resourcePath".toList ++ [':', ' ']) := by
    decide +kernel
  have h := Json.decode?_member Script.readsBack_escapeChar "resourcePath".toList
    (Json.readsAs_string Script.readsBack_escapeChar path)
  rw [← h]
  unfold expression Script.stringLiteral
  rw [hkey]
  simp

/-! ## exports -/

section
variable {p : Parts} {o : LoaderOptions} {path : Text}

theorem exportName_not_mem {m : Mode} {ms : List Mode} (hm : m ∉ ms) :
    m.exportName ∉ (p.exportsFor o path ms).map Prod.fst := by
  intro h
  rcases List.mem_cons.1 h with h | h
  · exact m.exportName_ne_attributes h
  · rw [List.map_map] at h
    obtain ⟨n, hn, e⟩ := List.mem_map.1 h
    exact hm (Mode.exportName_inj e ▸ (List.mem_filter.1 hn).1)

variable (p o path) in
/-- the module with the export for a mode, if the mode is active -/
def addMode (m : Mode) (script : Script.Module) : Script.Module :=
  if o.modes.contains m then script.addExport m.exportName (p.expression path m) else script

/-- **The export of one more mode overwrites none.** -/
theorem addMode_exportsFor {m : Mode} {ms : List Mode} (hm : m ∉ ms) (is ss : List Text) :
    p.addMode o path m ⟨is, ss, p.exportsFor o path ms⟩ =
      ⟨is, ss, p.exportsFor o path (ms ++ [m])⟩ := by
  unfold addMode Script.Module.addExport
  dsimp only
  rw [Script.Module.putExport_of_not_mem _ (exportName_not_mem hm)]
  cases hc : o.modes.contains m with
  | true =>
    rw [if_pos rfl]
    unfold exportsFor
    rw [List.filter_append, List.map_append, List.filter_cons_of_pos hc]
    rfl
  | false =>
    rw [if_neg Bool.false_ne_true]
    unfold exportsFor
    rw [List.filter_append, List.filter_cons_of_neg (by rw [hc]; decide), List.filter_nil,
      List.append_nil]

/-- the exports that need no framework -/
theorem addPlain_eq {l : Loader} (hl : l.modes = o.modes) (html : Option Text)
    (hh : ∀ h ∈ html, h = p.html) (hn : html = none → o.modes.contains .html = false) :
    l.addPlain p.extraction html path =
      ⟨[], [], p.exportsFor o path [.html, .body, .fileMeta]⟩ := by
  have h1 : p.addMode o path .html ⟨[], [], p.exportsFor o path []⟩ =
      ⟨[], [], p.exportsFor o path [.html]⟩ := addMode_exportsFor (by decide) [] []
  have h2 : p.addMode o path .body ⟨[], [], p.exportsFor o path [.html]⟩ =
      ⟨[], [], p.exportsFor o path [.html, .body]⟩ := addMode_exportsFor (by decide) [] []
  have h3 : p.addMode o path .fileMeta ⟨[], [], p.exportsFor o path [.html, .body]⟩ =
      ⟨[], [], p.exportsFor o path [.html, .body, .fileMeta]⟩ :=
    addMode_exportsFor (by decide) [] []
  rw [← h3, ← h2, ← h1]
  unfold addPlain
  rw [hl]
  cases html with
  | none =>
    have hskip : p.addMode o path .html ⟨[], [], p.exportsFor o path []⟩ =
        ⟨[], [], p.exportsFor o path []⟩ := if_neg (by rw [hn rfl]; decide)
    rw [hskip]
    rfl
  | some h =>
    obtain rfl := hh h rfl
    rfl

end

end Parts

/-! ## frameworks -/

theorem addFrameworks_append (html : Text) (rs : List ComponentReference)
    (as bs : List FrameworkBackend) (m : Script.Module) :
    addFrameworks html rs (as ++ bs) m =
      (addFrameworks html rs as m).bind (addFrameworks html rs bs) := by
  induction as generalizing m with
  | nil => rfl
  | cons a as ih =>
    rw [List.cons_append, addFrameworks, addFrameworks]
    cases a.addComponent m html rs with
    | error e => rfl
    | ok n => exact ih n

theorem backend_eq_nil_iff {modes : ModeSet} {f : Framework} {fo : FrameworkOptions}
    {compiler : Option Collaborator} {bs : List FrameworkBackend}
    (h : backend? modes f fo compiler = .ok bs) : bs = [] ↔ modes.contains f.mode = false := by
  unfold backend? at h
  cases hc : modes.contains f.mode with
  | true =>
    rw [hc, if_pos rfl] at h
    cases compiler with
    | none => exact nomatch h
    | some compile =>
      obtain rfl := Except.ok.inj h
      exact iff_of_false (List.cons_ne_nil _ _) (fun e => nomatch e)
  | false =>
    rw [hc, if_neg Bool.false_ne_true] at h
    obtain rfl := Except.ok.inj h
    exact iff_of_true rfl rfl

theorem isEmpty_backends {modes : ModeSet} {v r : FrameworkOptions}
    {vueCompiler reactCompiler : Option Collaborator} {vs rs : List FrameworkBackend}
    (hvue : backend? modes .vue v vueCompiler = .ok vs)
    (hreact : backend? modes .react r reactCompiler = .ok rs) :
    (vs ++ rs).isEmpty = !(modes.contains .vue || modes.contains .react) := by
  have hv : vs = [] ↔ modes.contains .vue = false := backend_eq_nil_iff hvue
  have hr : rs = [] ↔ modes.contains .react = false := backend_eq_nil_iff hreact
  rw [Bool.eq_iff_iff, List.isEmpty_iff, List.append_eq_nil_iff, hv, hr, Bool.not_eq_true',
    Bool.or_eq_false_iff]

/-- the module with the component of a framework, if its mode is active -/
def addActive (modes : ModeSet) (f : Framework) (compiled : Text) (rs : List ComponentReference)
    (script : Script.Module) : Script.Module :=
  if modes.contains f.mode then f.addCompiled script compiled rs else script

/-- the compiled template of a framework, if its mode is active -/
def compiled? (modes : ModeSet) (f : Framework) (fo : FrameworkOptions)
    (compiler : Option Collaborator) (html : Text) : Except LoadError Text :=
  if modes.contains f.mode then
    match compiler with
    | some compile => (⟨f, fo.rootClass, compile⟩ : FrameworkBackend).compiled html
    | none => .error (.missingCompiler f.mode)
  else .ok []

theorem compiled?_inactive {modes : ModeSet} {f : Framework} (h : modes.contains f.mode = false)
    (fo : FrameworkOptions) (compiler : Option Collaborator) (html : Text) :
    compiled? modes f fo compiler html = .ok [] := if_neg (by rw [h]; decide)

theorem exists_compiler {modes : ModeSet} {f : Framework} {fo : FrameworkOptions}
    {compiler : Option Collaborator} {html t : Text}
    (h : compiled? modes f fo compiler html = .ok t) (hc : modes.contains f.mode = true) :
    ∃ compile, compiler = some compile ∧
      (⟨f, fo.rootClass, compile⟩ : FrameworkBackend).compiled html = .ok t := by
  unfold compiled? at h
  rw [if_pos hc] at h
  cases compiler with
  | none => exact nomatch h
  | some compile => exact ⟨compile, rfl, h⟩

/-- the components of a framework that is built: its one component, if its mode is active -/
theorem addFrameworks_backend {modes : ModeSet} {f : Framework} {fo : FrameworkOptions}
    {compiler : Option Collaborator} {bs : List FrameworkBackend}
    (hb : backend? modes f fo compiler = .ok bs) (html : Text) (rs : List ComponentReference)
    (m : Script.Module) :
    addFrameworks html rs bs m =
      (compiled? modes f fo compiler html).map fun t => addActive modes f t rs m := by
  unfold backend? at hb
  unfold addActive compiled?
  cases hc : modes.contains f.mode with
  | true =>
    rw [hc, if_pos rfl] at hb
    cases compiler with
    | none => exact nomatch hb
    | some compile =>
      obtain rfl := Except.ok.inj hb
      rw [addFrameworks, FrameworkBackend.addComponent, if_pos rfl]
      dsimp only
      cases (⟨f, fo.rootClass, compile⟩ : FrameworkBackend).compiled html with
      | error e => rfl
      | ok t => rfl
  | false =>
    rw [hc, if_neg Bool.false_ne_true] at hb
    obtain rfl := Except.ok.inj hb
    rfl

theorem isEmpty_frameworks (modes : ModeSet) :
    modes.frameworks.isEmpty = !(modes.contains .vue || modes.contains .react) := by
  obtain ⟨html, body, fileMeta, vue, react⟩ := modes
  revert html body fileMeta vue react
  decide

/-! ## loading -/

section
variable {o : LoaderOptions} {c : Collaborators} {l : Loader} {source path : Text}
  {out : LoadOutput}

theorem of_build (h : build o c = .ok l) :
    l.modes = o.modes ∧ l.registry = o.registry ∧
      RenderChannel.resolve c.renderFunction c.renderer o.renderer = .ok l.channel ∧
      ∃ vue react, backend? o.modes .vue o.vue c.vueCompiler = .ok vue ∧
        backend? o.modes .react o.react c.reactCompiler = .ok react ∧
        l.frameworks = vue ++ react := by
  unfold build at h
  obtain ⟨channel, hchannel, h⟩ := ok_of_bind h
  obtain ⟨vue, hvue, h⟩ := ok_of_bind h
  obtain ⟨react, hreact, h⟩ := ok_of_bind h
  obtain rfl := Except.ok.inj h
  exact ⟨rfl, rfl, hchannel, vue, react, hvue, hreact, rfl⟩

end

namespace Parts

section
variable (p : Parts) (o : LoaderOptions) (path : Text)

def asModule : Script.Module := ⟨p.imports o, p.statements o, p.exportsFor o path Mode.all⟩

theorem output_eq : p.output o path = ⟨(p.asModule o path).code, (p.asModule o path).exportNames,
    p.extraction.attributes, p.references o⟩ := by
  have hnames : (p.asModule o path).exportNames =
      "attributes".toList :: o.modes.toList.map Mode.exportName := by
    unfold asModule Script.Module.exportNames exportsFor
    rw [List.map_cons, List.map_map]
    rfl
  rw [hnames]
  rfl

theorem reactImport_not_mem : Script.importKey Script.reactImport ∉
    (p.componentImports o).map Script.importKey := by
  intro hmem
  obtain ⟨s, hs, hkey⟩ := List.mem_map.1 hmem
  obtain ⟨r, hr, rfl⟩ := List.mem_map.1 (mem_of_mem_firstsBy hs)
  have hscan : r ∈ ComponentReference.scan p.html := by
    unfold references at hr
    split at hr
    · exact absurd hr List.not_mem_nil
    · exact hr
  exact ComponentRegistry.reactImport_key o.registry hscan hkey

/-- **React is imported once if it is active, and not at all otherwise.** -/
theorem count_reactImport : (p.imports o).count Script.reactImport =
    if o.modes.contains .react then 1 else 0 := by
  have hzero : (p.componentImports o).count Script.reactImport = 0 :=
    List.count_eq_zero.2 fun h => p.reactImport_not_mem o (List.mem_map.2 ⟨_, h, rfl⟩)
  unfold imports
  rw [List.count_append, hzero, Nat.zero_add]
  split
  · exact List.count_singleton_self
  · rfl

theorem references_plain (h : (o.modes.contains .vue || o.modes.contains .react) = false) :
    p.references o = [] := by
  unfold references
  rw [isEmpty_frameworks, h]
  rfl

theorem references_active (h : (o.modes.contains .vue || o.modes.contains .react) = true) :
    p.references o = ComponentReference.scan p.html := by
  unfold references
  rw [isEmpty_frameworks, h]
  rfl

/-- without a framework nothing is imported and nothing is declared -/
theorem asModule_plain (hv : o.modes.contains .vue = false) (hr : o.modes.contains .react = false) :
    p.asModule o path = ⟨[], [], p.exportsFor o path [.html, .body, .fileMeta]⟩ ∧
      p.references o = [] := by
  have href : p.references o = [] := p.references_plain o (by rw [hv, hr]; rfl)
  have hall : p.exportsFor o path Mode.all = p.exportsFor o path [.html, .body, .fileMeta] := by
    have e : Mode.all = [.html, .body, .fileMeta] ++ [.vue, .react] := rfl
    have hnone : [Mode.vue, .react].filter o.modes.contains = [] := by
      rw [List.filter_cons_of_neg (by rw [hv]; decide),
        List.filter_cons_of_neg (by rw [hr]; decide), List.filter_nil]
    unfold exportsFor
    rw [e, List.filter_append, hnone, List.append_nil]
  refine ⟨?_, href⟩
  unfold asModule imports componentImports statements
  rw [href, hall, hv, hr]
  rfl

theorem output_plain {p : Parts} {o : LoaderOptions} {path : Text}
    (hv : o.modes.contains .vue = false) (hr : o.modes.contains .react = false) :
    p.output o path =
      ⟨(⟨[], [], p.exportsFor o path [.html, .body, .fileMeta]⟩ : Script.Module).code,
        (⟨[], [], p.exportsFor o path [.html, .body, .fileMeta]⟩ : Script.Module).exportNames,
        p.extraction.attributes, []⟩ := by
  obtain ⟨hm, href⟩ := p.asModule_plain o path hv hr
  rw [p.output_eq, hm, href]

theorem addActive_vue (ms : List Mode) (hm : Mode.vue ∉ ms) (is : List Text) :
    addActive o.modes .vue p.vue (ComponentReference.scan p.html)
        ⟨is, [], p.exportsFor o path ms⟩ =
      ⟨is, p.statements o, p.exportsFor o path (ms ++ [.vue])⟩ := by
  rw [← addMode_exportsFor hm]
  unfold addActive addMode statements Framework.mode
  dsimp only
  cases o.modes.contains .vue with
  | true => rfl
  | false => rfl

theorem addActive_react (ms : List Mode) (hm : Mode.react ∉ ms) (ss : List Text)
    (rs : List ComponentReference) :
    addActive o.modes .react p.react rs ⟨p.componentImports o, ss, p.exportsFor o path ms⟩ =
      ⟨p.imports o, ss, p.exportsFor o path (ms ++ [.react])⟩ := by
  have hnew : (⟨p.componentImports o, ss, p.exportsFor o path ms⟩ : Script.Module).hasImport
      Script.reactImport = false := by
    rw [← Bool.not_eq_true, Script.Module.hasImport_iff]
    exact p.reactImport_not_mem o
  rw [← addMode_exportsFor hm]
  unfold addActive addMode imports Framework.mode
  dsimp only
  cases o.modes.contains .react with
  | true =>
    rw [if_pos rfl, if_pos rfl, if_pos rfl]
    unfold Framework.addCompiled Script.Module.addImport
    dsimp only
    rw [Script.defaultImport_react, hnew]
    rfl
  | false =>
    rw [if_neg Bool.false_ne_true, if_neg Bool.false_ne_true, if_neg Bool.false_ne_true,
      List.append_nil]

/-- the active frameworks complete the module -/
theorem asModule_frameworks (h : (o.modes.contains .vue || o.modes.contains .react) = true) :
    addActive o.modes .react p.react (ComponentReference.scan p.html)
        (addActive o.modes .vue p.vue (ComponentReference.scan p.html)
          ((⟨[], [], p.exportsFor o path [.html, .body, .fileMeta]⟩ : Script.Module).addComponents
            o.registry (ComponentReference.scan p.html))) = p.asModule o path ∧
      p.references o = ComponentReference.scan p.html := by
  have href := p.references_active o h
  have hcomponents : (⟨[], [], p.exportsFor o path [.html, .body, .fileMeta]⟩ :
      Script.Module).addComponents o.registry (ComponentReference.scan p.html) =
        ⟨p.componentImports o, [], p.exportsFor o path [.html, .body, .fileMeta]⟩ := by
    unfold componentImports
    rw [Script.Module.addComponents_eq rfl, href]
  have hvue := p.addActive_vue o path [.html, .body, .fileMeta] (by decide) (p.componentImports o)
  have hreact := p.addActive_react o path [.html, .body, .fileMeta, .vue] (by decide)
    (p.statements o) (ComponentReference.scan p.html)
  refine ⟨?_, href⟩
  rw [hcomponents, hvue]
  exact hreact

end

end Parts

section
variable {o : LoaderOptions} {c : Collaborators} {l : Loader} {source path : Text}
  {out : LoadOutput}

/-- the rendered body, if some mode needs it -/
def rendered? (modes : ModeSet) (channel : RenderChannel) (body : Text) : Except LoadError Text :=
  if modes.needsHtml then channel.render body else .ok []

/-- the parts of a document, or the first failure; a part that no mode needs is left empty -/
def gather (o : LoaderOptions) (c : Collaborators) (channel : RenderChannel) (source : Text) :
    Except LoadError Parts := do
  let e ← (Frontmatter.extract source).mapError .frontmatter
  let html ← rendered? o.modes channel e.body
  let vue ← compiled? o.modes .vue o.vue c.vueCompiler html
  let react ← compiled? o.modes .react o.react c.reactCompiler html
  .ok ⟨e, html, vue, react⟩

theorem html?_of_needsHtml (hn : l.modes.needsHtml = true) (body : Text) :
    l.html? body = (l.channel.render body).map some := if_pos hn

/-- a document that no mode wants rendered -/
theorem load_plain {e : Frontmatter.Extraction} (hl : build o c = .ok l)
    (he : Frontmatter.extract source = .ok e) (hn : o.modes.needsHtml = false) :
    l.load source path = .ok ((⟨e, [], [], []⟩ : Parts).output o path) := by
  obtain ⟨hmodes, -⟩ := of_build hl
  obtain ⟨hh, hv, hr⟩ := ModeSet.of_not_needsHtml hn
  have hhtml : l.html? e.body = .ok none := by
    unfold html?
    rw [hmodes, hn, if_neg Bool.false_ne_true]
  unfold load
  rw [he]
  show (l.html? e.body).bind _ = _
  rw [hhtml, Parts.output_plain hv hr,
    ← Parts.addPlain_eq hmodes none (fun x hx => nomatch hx) fun _ => hh]
  rfl

/-- a document that is rendered -/
theorem load_rendered {e : Frontmatter.Extraction} {x : Text} (hl : build o c = .ok l)
    (he : Frontmatter.extract source = .ok e) (hn : o.modes.needsHtml = true)
    (hx : l.channel.render e.body = .ok x) :
    l.load source path = (compiled? o.modes .vue o.vue c.vueCompiler x).bind fun v =>
      (compiled? o.modes .react o.react c.reactCompiler x).map fun r =>
        (⟨e, x, v, r⟩ : Parts).output o path := by
  obtain ⟨hmodes, hregistry, -, vs, rs, hvue, hreact, hframeworks⟩ := of_build hl
  have hplain : ∀ v r : Text, l.addPlain e (some x) path =
      ⟨[], [], (⟨e, x, v, r⟩ : Parts).exportsFor o path [.html, .body, .fileMeta]⟩ :=
    fun v r => Parts.addPlain_eq (p := ⟨e, x, v, r⟩) hmodes (some x)
      (fun y hy => (Option.some.inj hy).symm) fun hn => absurd hn (Option.some_ne_none x)
  unfold load
  rw [he]
  show (l.html? e.body).bind _ = _
  rw [html?_of_needsHtml (hmodes.symm ▸ hn), hx]
  show (if l.frameworks.isEmpty then _ else _) = _
  rw [hframeworks, hregistry, isEmpty_backends hvue hreact]
  cases hactive : o.modes.contains .vue || o.modes.contains .react with
  | false =>
    obtain ⟨hv, hr⟩ := Bool.or_eq_false_iff.1 hactive
    rw [if_pos (show (!false) = true from rfl), compiled?_inactive hv, compiled?_inactive hr,
      hplain [] []]
    exact congrArg Except.ok (Parts.output_plain (p := ⟨e, x, [], []⟩) hv hr).symm
  | true =>
    rw [if_neg (by decide)]
    show (addFrameworks x _ (vs ++ rs) _).bind _ = _
    rw [addFrameworks_append, addFrameworks_backend hvue]
    cases compiled? o.modes .vue o.vue c.vueCompiler x with
    | error err => rfl
    | ok v =>
      show (addFrameworks x _ rs _).bind _ = Except.map _ _
      rw [addFrameworks_backend hreact]
      cases compiled? o.modes .react o.react c.reactCompiler x with
      | error err => rfl
      | ok r =>
        let p : Parts := ⟨e, x, v, r⟩
        obtain ⟨hmodule, href⟩ := p.asModule_frameworks o path hactive
        show Except.ok _ = Except.ok (p.output o path)
        rw [p.output_eq, ← hmodule, href, ← hplain v r]

/-- **Loading is gathering the parts of a document.** -/
theorem load_eq_gather (hl : build o c = .ok l) (source path : Text) :
    l.load source path = (gather o c l.channel source).map (·.output o path) := by
  unfold gather rendered?
  cases he : Frontmatter.extract source with
  | error cause =>
    unfold load
    rw [he]
    rfl
  | ok e =>
    cases hn : o.modes.needsHtml with
    | false =>
      obtain ⟨-, hv, hr⟩ := ModeSet.of_not_needsHtml hn
      rw [load_plain hl he hn]
      show _ = ((compiled? o.modes .vue o.vue c.vueCompiler []).bind _).map _
      rw [compiled?_inactive hv]
      show _ = ((compiled? o.modes .react o.react c.reactCompiler []).bind _).map _
      rw [compiled?_inactive hr]
      rfl
    | true =>
      show _ = ((l.channel.render e.body).bind _).map _
      cases hx : l.channel.render e.body with
      | error err =>
        unfold load
        rw [he]
        show (l.html? e.body).bind _ = _
        rw [html?_of_needsHtml ((of_build hl).1.symm ▸ hn), hx]
        rfl
      | ok x =>
        rw [load_rendered hl he hn hx]
        show _ = ((compiled? o.modes .vue o.vue c.vueCompiler x).bind _).map _
        cases compiled? o.modes .vue o.vue c.vueCompiler x with
        | error err => rfl
        | ok v =>
          show Except.map _ _ =
            ((compiled? o.modes .react o.react c.reactCompiler x).bind _).map _
          cases compiled? o.modes .react o.react c.reactCompiler x with
          | error err => rfl
          | ok r => rfl

/-- a document that is loaded has parts, and its module is made of them -/
theorem exists_parts (hl : build o c = .ok l) (h : l.load source path = .ok out) :
    ∃ p : Parts, p.Of o c source ∧ out = p.output o path := by
  rw [load_eq_gather hl] at h
  obtain ⟨p, hp, rfl⟩ := ok_of_map h
  unfold gather at hp
  obtain ⟨e, he, hp⟩ := ok_of_bind hp
  obtain ⟨html, hhtml, hp⟩ := ok_of_bind hp
  obtain ⟨vue, hvue, hp⟩ := ok_of_bind hp
  obtain ⟨react, hreact, hp⟩ := ok_of_bind hp
  obtain rfl := Except.ok.inj hp
  refine ⟨⟨e, html, vue, react⟩, ⟨ok_of_mapError he, fun hn => ?_, exists_compiler hvue,
    exists_compiler hreact⟩, rfl⟩
  unfold rendered? at hhtml
  rw [if_pos hn] at hhtml
  exact ⟨l.channel, (of_build hl).2.2.1, hhtml⟩

/-- **Loading a document gives the module with its parts.**  React is imported once if it is active,
and the literals of the frontmatter, the rendered body, the body and the path denote them. -/
theorem load_eq_output (hl : build o c = .ok l) (h : l.load source path = .ok out) :
    ∃ p : Parts, p.Of o c source ∧ out = p.output o path ∧
      (p.imports o).count Script.reactImport = (if o.modes.contains .react then 1 else 0) ∧
      Json.decode? (Script.valueLiteral p.extraction.attributes) =
        some p.extraction.attributes ∧
      Json.decode? (p.expression path .html) = some (.string p.html) ∧
      Json.decode? (p.expression path .body) = some (.string p.extraction.body) ∧
      Json.decode? (p.expression path .fileMeta) =
        some (.object [("resourcePath".toList, .string path)]) := by
  obtain ⟨p, hp, hout⟩ := exists_parts hl h
  refine ⟨p, hp, hout, p.count_reactImport o, Parts.decode?_attributes hp, ?_, ?_,
    p.decode?_meta path⟩
  · exact Parts.decode?_stringLiteral p.html
  · exact Parts.decode?_stringLiteral p.extraction.body

end

/-- the module of a document with a component, for React -/
theorem load_eq_output_react :
    let o : LoaderOptions := { mode := some ["react-component".toList] }
    let c : Collaborators := {
      renderFunction := some fun body => .ok body
      reactCompiler := some fun _ => .ok "r".toList }
    let source := "---\na: 1\n---\n<x-y></x-y>".toList
    let code :=
      "import XY from \"./components/XY\";\nimport React from \"react\";\n".toList ++
        "export const attributes = \x7b\"a\":1\x7d;\nexport const react = ".toList ++
        "function FrontmatterMarkdown(props) \x7b return r; \x7d;\n".toList
    ∃ l out, build o c = .ok l ∧ l.load source "p.md".toList = .ok out ∧
      out.code = code ∧ ∃ p : Parts, p.Of o c source ∧ out = p.output o "p.md".toList := by
  intro o c source code
  have hcode : ((build o c).toOption.bind fun l =>
      (l.load source "p.md".toList).toOption).map LoadOutput.code = some code := by
    decide +kernel
  cases hl : build o c with
  | error e =>
    rw [hl] at hcode
    exact nomatch hcode
  | ok l =>
    cases h : l.load source "p.md".toList with
    | error e =>
      rw [hl] at hcode
      simp only [Except.toOption, Option.bind_some] at hcode
      rw [h] at hcode
      exact nomatch hcode
    | ok out =>
      rw [hl] at hcode
      simp only [Except.toOption, Option.bind_some] at hcode
      rw [h] at hcode
      obtain ⟨p, hp, hout, -⟩ := load_eq_output hl h
      exact ⟨l, out, rfl, h, Option.some.inj hcode, p, hp, hout⟩

end Loader

end MarkdownModule

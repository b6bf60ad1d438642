import MarkdownModule.Framework.Component
import MarkdownModule.Proofs.Html.CodeMark
import MarkdownModule.Proofs.Naming.Camel
import MarkdownModule.Proofs.Script.Object

/-!
# Tags that find their component

A Vue component lists the components of its template under their Pascal spellings.  A template keeps
each tag as it is written, and looks it up by its name, by the name with its hyphens closed, and by
that with a capital.

* `Framework.components?`        the listed components of an exported module
* `Framework.find?`              the name that the lookup of a tag finds
* `Framework.find?_iff`          the tags of a document that find their component
* `Framework.find?_acronym`      a document with a tag that finds none
-/

namespace MarkdownModule.Framework

open Script (Expression)

/-! ## the exported object -/

def componentsObject (rs : List ComponentReference) : Expression :=
  .object (rs.map fun r => (r.pascal, .name (Script.bindingFor r.pascal)))

def componentObject (rs : List ComponentReference) : Expression :=
  .object [("name".toList, .string Script.componentName), ("components".toList, componentsObject rs),
    ("render".toList, .name Script.renderBinding)]

def vueObject (rs : List ComponentReference) : Expression :=
  .object [("render".toList, .name Script.renderBinding), ("component".toList, componentObject rs)]

/-- the components that the exported Vue component of a module lists -/
def components? (m : Script.Module) : Option Expression :=
  (m.exports.lookup Mode.vue.exportName).bind fun exported =>
    (Expression.read? exported).bind fun v =>
      (v.get? "component".toList).bind (·.get? "components".toList)

theorem writeMember_registration (r : ComponentReference) :
    Script.writeMember r.pascal (.name (Script.bindingFor r.pascal))
      (Script.bindingFor r.pascal) = registration r := by
  have hname : (Expression.name (Script.bindingFor r.pascal)).isName r.pascal = true ↔
      Script.bindingFor r.pascal = r.pascal := decide_eq_true_iff
  rw [Script.writeMember, registration]
  by_cases h : Script.bindingFor r.pascal = r.pascal
  · rw [if_pos (hname.2 h), if_pos h]
  · rw [if_neg fun e => h (hname.1 e), if_neg h]

theorem memberSources_registration (rs : List ComponentReference) :
    Script.memberSources (rs.map fun r => (r.pascal, .name (Script.bindingFor r.pascal))) =
      rs.map registration := by
  induction rs with
  | nil => rfl
  | cons r rs ih =>
    rw [List.map_cons, Script.memberSources, ih, List.map_cons, Expression.source,
      writeMember_registration]

theorem source_componentsObject (rs : List ComponentReference) :
    (componentsObject rs).source = registrations rs := by
  rw [componentsObject, Expression.source, memberSources_registration]
  rfl

/-- the exported expression is the object as it is written -/
theorem source_vueObject (rs : List ComponentReference) :
    (vueObject rs).source = vueExpression rs := by
  have hrender : (Expression.name Script.renderBinding).isName "render".toList = false := by decide
  have hobject : ∀ members n, (Expression.object members).isName n = false := fun _ _ => rfl
  have hstring : ∀ s n, (Expression.string s).isName n = false := fun _ _ => rfl
  have hcomponents : (componentsObject rs).isName "components".toList = false := rfl
  unfold vueObject componentObject vueExpression
  rw [← source_componentsObject]
  simp only [Expression.source, Script.memberSources,
    Script.writeMember_of_isName_eq_false hrender,
    Script.writeMember_of_isName_eq_false (hobject _ _),
    Script.writeMember_of_isName_eq_false (hstring _ _),
    Script.writeMember_of_isName_eq_false hcomponents]
  generalize Script.renderBinding = render, Script.stringLiteral Script.componentName = title,
    (componentsObject rs).source = components
  simp [Script.braced, List.intercalate]

theorem isKey_of_isPascal {s : Text} (h : Naming.IsPascal s) : Script.IsKey s where
  toIsName := Script.isName_of_isIdentifier
    (Script.isIdentifier_of_isUpper h.head fun c hc => .inl (h.chars c hc))
  ne_prototype := by
    rintro rfl
    exact absurd h.head (by decide)

theorem plain_vueObject (html : Text) : (vueObject (ComponentReference.scan html)).Plain := by
  have hkey : ∀ k, Script.isIdentifier k = true ∧ k ≠ Script.prototypeKey → Script.IsKey k :=
    fun k h => ⟨Script.isName_of_isIdentifier h.1, h.2⟩
  have hrender : (Expression.name Script.renderBinding).Plain := .name (by decide)
  have hcomponents : (componentsObject (ComponentReference.scan html)).Plain := by
    refine .object (fun m hm => ?_) fun m hm => ?_
    · obtain ⟨r, hr, rfl⟩ := List.mem_map.1 hm
      exact isKey_of_isPascal (ComponentReference.isPascal_of_mem_scan hr)
    · obtain ⟨r, hr, rfl⟩ := List.mem_map.1 hm
      exact .name (Script.isIdentifier_bindingFor (ComponentReference.isPascal_of_mem_scan hr))
  have hcomponent : (componentObject (ComponentReference.scan html)).Plain := by
    refine .object ?_ ?_
    · simp only [List.forall_mem_cons]
      exact ⟨hkey _ (by decide), hkey _ (by decide), hkey _ (by decide), by simp⟩
    · simp only [List.forall_mem_cons]
      exact ⟨.string _, hcomponents, hrender, by simp⟩
  refine .object ?_ ?_
  · simp only [List.forall_mem_cons]
    exact ⟨hkey _ (by decide), hkey _ (by decide), by simp⟩
  · simp only [List.forall_mem_cons]
    exact ⟨hrender, hcomponent, by simp⟩

/-- a name that is exported is found with its expression -/
theorem lookup_putExport (name expression : Text) (es : List (Text × Text)) :
    (Script.Module.putExport name expression es).lookup name = some expression := by
  induction es with
  | nil => exact List.lookup_cons_self
  | cons e es ih =>
    rw [Script.Module.putExport]
    by_cases h : e.1 = name
    · rw [if_pos h, h]
      exact List.lookup_cons_self
    · rw [if_neg h, List.lookup_cons, beq_eq_false_iff_ne.2 (Ne.symm h)]
      exact ih

/-- **The exported component lists the components of the document.** -/
theorem components?_addCompiled (m : Script.Module) (compiled html : Text) :
    components? (Framework.vue.addCompiled m compiled (ComponentReference.scan html)) =
      some (componentsObject (ComponentReference.scan html)) := by
  have hexport : (Framework.vue.addCompiled m compiled (ComponentReference.scan html)).exports.lookup
      Mode.vue.exportName = some (vueObject (ComponentReference.scan html)).source := by
    rw [source_vueObject]
    exact lookup_putExport _ _ _
  have hcomponent : ∀ rs, (vueObject rs).get? "component".toList = some (componentObject rs) :=
    fun _ => rfl
  have hcomponents : ∀ rs, (componentObject rs).get? "components".toList =
      some (componentsObject rs) := fun _ => rfl
  rw [components?, hexport, Option.bind_some, Expression.read?_source (plain_vueObject html),
    Option.bind_some, hcomponent, Option.bind_some, hcomponents]

/-! ## lookups -/

def name? : Expression → Option Text
  | .name n => some n
  | _ => none

def lookupKeys (tag : Text) : List Text :=
  [tag, Naming.camelize tag, Naming.capitalize (Naming.camelize tag)]

/-- the name that the lookup of a tag finds among components: the first of its keys that there is
counts -/
def lookup? (components : Expression) (tag : Text) : Option Text :=
  ((lookupKeys tag).findSome? fun k => components.get? k).bind name?

theorem camelize_of_isPascal {s : Text} (h : ∀ c ∈ s, c.isAlphanum = true) :
    Naming.camelize s = s := by
  induction s with
  | nil => rfl
  | cons c s ih =>
    obtain ⟨hc, hs⟩ := List.forall_mem_cons.1 h
    have hne : c ≠ '-' := fun e => absurd (e ▸ hc) (by decide)
    rw [Naming.camelize_cons hne, ih hs]

theorem capitalize_of_isUpper {s : Text} (h : s.head?.any Char.isUpper = true) :
    Naming.capitalize s = s := by
  cases s with
  | nil => rfl
  | cons c s =>
    have hc : c.isUpper = true := h
    rw [Naming.capitalize, Char.toUpper_eq_of_not_isLower fun hl => Char.not_isUpper_of_isLower hl hc]

/-- the one key of a tag that may be a Pascal spelling -/
theorem eq_of_mem_lookupKeys {tag k : Text} (hk : k ∈ lookupKeys tag) (h : Naming.IsPascal k) :
    k = Naming.capitalize (Naming.camelize tag) := by
  simp only [lookupKeys, List.mem_cons, List.not_mem_nil, or_false] at hk
  rcases hk with rfl | rfl | rfl
  · rw [camelize_of_isPascal h.chars, capitalize_of_isUpper h.head]
  · rw [capitalize_of_isUpper h.head]
  · rfl

/-- the lookup of a tag among components with Pascal spellings -/
theorem lookup?_componentsObject {rs : List ComponentReference}
    (h : ∀ r ∈ rs, Naming.IsPascal r.pascal) (tag : Text) :
    lookup? (componentsObject rs) tag =
      if Naming.capitalize (Naming.camelize tag) ∈ rs.map ComponentReference.pascal then
        some (Script.bindingFor (Naming.capitalize (Naming.camelize tag)))
      else none := by
  have hkey : ∀ k ∈ lookupKeys tag, k ∈ rs.map ComponentReference.pascal →
      k = Naming.capitalize (Naming.camelize tag) := by
    intro k hk hmem
    obtain ⟨r, hr, rfl⟩ := List.mem_map.1 hmem
    exact eq_of_mem_lookupKeys hk (h r hr)
  have hget : ∀ k, (componentsObject rs).get? k =
      if k ∈ rs.map ComponentReference.pascal then some (.name (Script.bindingFor k)) else none :=
    fun k => Expression.get?_map _ (fun p => .name (Script.bindingFor p)) rs k
  rw [lookup?]
  cases hfound : (lookupKeys tag).findSome? fun k => (componentsObject rs).get? k with
  | none =>
    have hlast := List.findSome?_eq_none_iff.1 hfound
      (Naming.capitalize (Naming.camelize tag)) (by simp [lookupKeys])
    rw [hget] at hlast
    split at hlast
    · exact nomatch hlast
    · next hmem => rw [if_neg hmem, Option.bind_none]
  | some v =>
    obtain ⟨k, hk, hv⟩ := List.exists_of_findSome?_eq_some hfound
    rw [hget] at hv
    split at hv
    · next hmem =>
      rw [← Option.some.inj hv, ← hkey k hk hmem, if_pos hmem]
      rfl
    · exact nomatch hv

/-- **A tag of a document finds its component exactly when its name is regular**, whatever the
document is.  The template keeps the document but for the start tags of `code`, so the tag is looked
up by its own spelling, among the components that the exported module lists. -/
theorem resolves_iff (g : ComponentRegistry) (m : Script.Module) (compiled rootClass : Text)
    {html template tag : Text} (ht : Framework.vue.template rootClass html = .ok template)
    (htag : tag ∈ Html.startTagNames html) (hcustom : Html.isCustom tag = true) :
    (∃ marked, template = "<div class=\"".toList ++ Html.encodeDoubleQuoted rootClass ++
        "\">".toList ++ marked ++ "</div>".toList ∧
      Html.Marked "code".toList (·.set verbatimMark []) html marked) ∧
    ∃ components,
      components? (Framework.vue.addCompiled m compiled (ComponentReference.scan html)) =
        some components ∧
      (lookup? components tag = some (g.resolve (.ofTag tag)).binding ↔
        Naming.isRegular tag = true) := by
  constructor
  · obtain ⟨marked, hmarked, h⟩ := ok_of_bind ht
    exact ⟨marked, (Except.ok.inj h).symm, Html.marked_markCode (ok_of_mapError hmarked)⟩
  · have hpascal : ∀ r ∈ ComponentReference.scan html, Naming.IsPascal r.pascal :=
      fun r hr => ComponentReference.isPascal_of_mem_scan hr
    have hlisted : Naming.pascal tag ∈
        (ComponentReference.scan html).map ComponentReference.pascal := by
      obtain ⟨r, hr, e⟩ := ComponentReference.exists_mem_scan htag hcustom
      exact List.mem_map.2 ⟨r, hr, e⟩
    have hunderscore : ∀ p ∈ (ComponentReference.scan html).map ComponentReference.pascal,
        '_' ∉ p := by
      intro p hp
      obtain ⟨r, hr, rfl⟩ := List.mem_map.1 hp
      exact (ComponentReference.pascal_of_mem_scan hr).1
    refine ⟨_, components?_addCompiled m compiled html, ?_⟩
    rw [lookup?_componentsObject hpascal, ComponentRegistry.binding_resolve,
      ← Naming.pascal_eq_camelize_iff (Html.isAlpha_head_of_mem_startTagNames htag)]
    constructor
    · intro h
      split at h
      · next hmem =>
        exact (Script.bindingFor_inj (hunderscore _ hmem) (hunderscore _ hlisted)
          (Option.some.inj h)).symm
      · exact nomatch h
    · intro h
      rw [← h, if_pos hlisted]
      rfl

/-- the tag of a document that also has code -/
theorem resolves_iff_widget :
    let html := "<code>a</code><my-widget></my-widget>".toList
    let tag := "my-widget".toList
    let template := "<div class=\"doc\"><code v-pre=\"\">a</code><my-widget></my-widget></div>".toList
    Framework.vue.template "doc".toList html = .ok template ∧ tag ∈ Html.startTagNames html ∧
      Html.isCustom tag = true ∧ Naming.isRegular tag = true ∧
      ∃ components, components? (Framework.vue.addCompiled .empty "null".toList
          (ComponentReference.scan html)) = some components ∧
        lookup? components tag = some "MyWidget".toList := by
  intro html tag template
  have ht : Framework.vue.template "doc".toList html = .ok template := by rfl
  have htag : tag ∈ Html.startTagNames html := by decide +kernel
  have hcustom : Html.isCustom tag = true := by decide +kernel
  have hregular : Naming.isRegular tag = true := by decide
  have hbinding : (ComponentRegistry.standard.resolve (.ofTag tag)).binding =
      "MyWidget".toList := by decide +kernel
  obtain ⟨-, components, hc, hiff⟩ :=
    resolves_iff .standard .empty "null".toList "doc".toList ht htag hcustom
  exact ⟨ht, htag, hcustom, hregular, components, hc, hbinding ▸ hiff.2 hregular⟩

/-- **A tag with an acronym finds no component**: it is listed under a Pascal spelling in which the
acronym is a word. -/
theorem not_resolves_acronym :
    let html := "<MDXProvider></MDXProvider>".toList
    let tag := "MDXProvider".toList
    tag ∈ Html.startTagNames html ∧ Html.isCustom tag = true ∧
      Framework.vue.template "doc".toList html =
        .ok "<div class=\"doc\"><MDXProvider></MDXProvider></div>".toList ∧
      (components? (Framework.vue.addCompiled .empty "null".toList
        (ComponentReference.scan html))).map (lookup? · tag) = some none ∧
      (ComponentRegistry.standard.resolve (.ofTag tag)).binding = "MdxProvider".toList := by
  intro html tag
  refine ⟨by decide +kernel, by decide +kernel, rfl, by decide +kernel, by decide +kernel⟩

/-- a tag may also find the component of another tag -/
example : (components? (Framework.vue.addCompiled .empty "null".toList
    (ComponentReference.scan "<FooBAR></FooBAR><foo-b-a-r></foo-b-a-r>".toList))).bind
      (lookup? · "FooBAR".toList) = some "FooBAR".toList ∧
    (ComponentReference.ofTag "FooBAR".toList).pascal = "FooBar".toList := by decide +kernel

end MarkdownModule.Framework

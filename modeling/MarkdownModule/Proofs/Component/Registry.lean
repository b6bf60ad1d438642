import MarkdownModule.Component.Registry
import MarkdownModule.Proofs.Naming.Spelling

/-!
# A registry is a map from kebab spellings

A reference is placed by the first definition whose name has its kebab spelling.  Neither the
spelling of the tag nor the definitions of other components nor a second definition of the component
make a difference.

* `ComponentRegistry.Exports`            the name under which a definition exports a tag
* `ComponentRegistry.Places`             where a registry places a tag
* `ComponentRegistry.places_iff`         what is found for a tag is the place of the tag
* `ComponentRegistry.resolve_canonical`  what the place of a tag depends on
-/

namespace MarkdownModule

/-! ## members with a key -/

section
variable {α β : Type} [BEq β] (key : α → β) {k : β} {as bs : List α}

/-- a member whose key has occurred before is not found -/
theorem find?_key_concat {a : α} (h : key a ∈ as.map key) :
    (as ++ [a]).find? (key · == k) = as.find? (key · == k) := by
  rw [List.find?_append]
  cases hf : as.find? (key · == k) with
  | some b => rfl
  | none =>
    obtain ⟨b, hb, e⟩ := List.mem_map.1 h
    have hk : (key a == k) = false := by
      rw [← e]
      exact Bool.eq_false_iff.2 (List.find?_eq_none.1 hf b hb)
    rw [Option.none_or, List.find?_singleton, hk]
    rfl

variable [LawfulBEq β]

theorem find?_key_iff (hn : (as.map key).Nodup) {a : α} :
    as.find? (key · == k) = some a ↔ a ∈ as ∧ key a = k := by
  constructor
  · intro h
    have hk := List.find?_some h
    exact ⟨List.mem_of_find?_eq_some h, eq_of_beq hk⟩
  · rintro ⟨ha, rfl⟩
    cases h : as.find? (key · == key a) with
    | none => exact absurd BEq.rfl (List.find?_eq_none.1 h a ha)
    | some b =>
      have hk := List.find?_some h
      rw [List.inj_on_of_nodup_map hn (List.mem_of_find?_eq_some h) ha (eq_of_beq hk)]

/-- members that are told apart by their keys are found in any order -/
theorem find?_key_perm (hn : (as.map key).Nodup) (h : as.Perm bs) :
    bs.find? (key · == k) = as.find? (key · == k) := by
  have hn' : (bs.map key).Nodup := (h.map key).nodup_iff.1 hn
  refine Option.ext fun a => ?_
  rw [find?_key_iff key hn, find?_key_iff key hn', h.mem_iff]

/-- members with other keys can stand anywhere -/
theorem find?_key_sublist [DecidableEq α] (h : as.Sublist bs) (hd : ∀ a ∈ bs.diff as, key a ≠ k) :
    bs.find? (key · == k) = as.find? (key · == k) := by
  have hother : (bs.diff as).filter (key · == k) = [] :=
    List.filter_eq_nil_iff.2 fun a ha he => hd a ha (eq_of_beq he)
  have hperm : (as ++ bs.diff as).Perm bs :=
    List.subperm_append_diff_self_of_count_le fun a _ => h.count_le a
  have hfilter : (as.filter (key · == k)).Perm (bs.filter (key · == k)) := by
    have := hperm.filter (key · == k)
    rwa [List.filter_append, hother, List.append_nil] at this
  rw [← List.head?_filter, ← List.head?_filter,
    (h.filter (key · == k)).eq_of_length hfilter.length_eq]

end

namespace ComponentRegistry

/-! ## places -/

/-- the name under which the module of a definition exports the component of a tag, unless it is the
default export: a name with hyphens is the spelling of a tag and no name in a script -/
inductive Exports (d : ComponentDefinition) (tag : Text) : Option Text → Prop
  | default (h : d.exportKind = .default) : Exports d tag none
  | pascal (h : d.exportKind = .named) (hname : '-' ∈ d.name) :
      Exports d tag (some (Naming.pascal tag))
  | name (h : d.exportKind = .named) (hname : '-' ∉ d.name) : Exports d tag (some d.name)

/-- where a registry places a tag: the definition that covers it, and its import -/
inductive Places (g : ComponentRegistry) (tag : Text) :
    Option ComponentDefinition → ComponentImport → Prop
  /-- by the first definition whose name has the kebab spelling of the tag -/
  | first {before after : List ComponentDefinition} {d : ComponentDefinition} {named : Option Text}
      (h : g.definitions = before ++ d :: after) (hd : Naming.kebab d.name = Naming.kebab tag)
      (hbefore : ∀ e ∈ before, Naming.kebab e.name ≠ Naming.kebab tag)
      (hnamed : Exports d tag named) :
      Places g tag (some d) ⟨Script.bindingFor (Naming.pascal tag), d.modulePath, named⟩
  /-- as a default export, when no definition has this spelling -/
  | other (h : ∀ d ∈ g.definitions, Naming.kebab d.name ≠ Naming.kebab tag) :
      Places g tag none
        ⟨Script.bindingFor (Naming.pascal tag), g.pathStart ++ Naming.pascal tag, none⟩

variable {g : ComponentRegistry} {tag : Text}

theorem exports_exportedName (d : ComponentDefinition) (tag : Text) :
    Exports d tag (exportedName d (.ofTag tag)) := by
  unfold exportedName
  cases h : d.exportKind with
  | default => exact .default h
  | named =>
    by_cases hname : '-' ∈ d.name
    · rw [if_pos (List.contains_iff_mem.2 hname)]
      exact .pascal h hname
    · rw [if_neg (mt List.contains_iff_mem.1 hname)]
      exact .name h hname

theorem exports_iff {d : ComponentDefinition} {named : Option Text} :
    Exports d tag named ↔ exportedName d (.ofTag tag) = named := by
  constructor
  · intro h
    unfold exportedName
    cases h with
    | default h => rw [h]
    | pascal h hname =>
      rw [h]
      exact congrArg some (if_pos (List.contains_iff_mem.2 hname))
    | name h hname =>
      rw [h]
      exact congrArg some (if_neg (mt List.contains_iff_mem.1 hname))
  · rintro rfl
    exact exports_exportedName d tag

theorem find?_ofTag (g : ComponentRegistry) (tag : Text) : g.find? (.ofTag tag) =
    g.definitions.find? (Naming.kebab ·.name == Naming.kebab tag) := rfl

theorem resolve_some {r : ComponentReference} {d : ComponentDefinition} (h : g.find? r = some d) :
    g.resolve r = ⟨Script.bindingFor r.pascal, d.modulePath, exportedName d r⟩ := by
  rw [resolve, h]

theorem resolve_none {r : ComponentReference} (h : g.find? r = none) :
    g.resolve r = ⟨Script.bindingFor r.pascal, g.pathStart ++ r.pascal, none⟩ := by
  rw [resolve, h]

/-- **What is found for a tag is its place.** -/
theorem places_iff {d : Option ComponentDefinition} {i : ComponentImport} :
    Places g tag d i ↔ g.find? (.ofTag tag) = d ∧ g.resolve (.ofTag tag) = i := by
  constructor
  · intro h
    cases h with
    | @first before after d named h hd hbefore hnamed =>
      rw [← exports_iff.1 hnamed]
      have hfind : g.find? (.ofTag tag) = some d := by
        rw [find?_ofTag, List.find?_eq_some_iff_append]
        exact ⟨beq_iff_eq.2 hd, _, _, h, fun e he => by simpa using hbefore e he⟩
      exact ⟨hfind, resolve_some hfind⟩
    | other h =>
      have hfind : g.find? (.ofTag tag) = none := by
        rw [find?_ofTag, List.find?_eq_none]
        exact fun e he hk => h e he (eq_of_beq hk)
      exact ⟨hfind, resolve_none hfind⟩
  · rintro ⟨rfl, rfl⟩
    cases hfind : g.find? (.ofTag tag) with
    | some d =>
      rw [resolve_some hfind]
      rw [find?_ofTag, List.find?_eq_some_iff_append] at hfind
      obtain ⟨hd, before, after, h, hbefore⟩ := hfind
      exact .first h (eq_of_beq hd) (fun e he => by simpa using hbefore e he)
        (exports_exportedName d tag)
    | none =>
      rw [resolve_none hfind]
      rw [find?_ofTag, List.find?_eq_none] at hfind
      exact .other fun e he hk => hfind e he (beq_iff_eq.2 hk)

/-- two registries that find the same definition import the same, when their paths start alike -/
theorem resolve_congr {ds es : List ComponentDefinition} {start : Text} {r : ComponentReference}
    (h : find? ⟨es, start⟩ r = find? ⟨ds, start⟩ r) :
    resolve ⟨es, start⟩ r = resolve ⟨ds, start⟩ r := by
  rw [resolve, resolve, h]

/-- **What the place of a tag depends on.**  Tags with one kebab spelling have one place, which is
that of the first definition with this spelling; definitions that are told apart by their kebab
spellings may be reordered, and a second definition of a spelling or definitions of others may be
added. -/
theorem resolve_canonical (ds : List ComponentDefinition) (start tag : Text) :
    let place ds tag := resolve ⟨ds, start⟩ (.ofTag tag)
    let spellings := ds.map fun d => Naming.kebab d.name
    (∀ other, Naming.kebab other = Naming.kebab tag → place ds other = place ds tag) ∧
      (∀ d i, Places ⟨ds, start⟩ tag d i ↔
        find? ⟨ds, start⟩ (.ofTag tag) = d ∧ place ds tag = i) ∧
      (∀ es, ds.Perm es → spellings.Nodup → place es tag = place ds tag) ∧
      (∀ d, Naming.kebab d.name ∈ spellings → place (ds ++ [d]) tag = place ds tag) ∧
      (∀ es, ds.Sublist es → (∀ d ∈ es.diff ds, Naming.kebab d.name ≠ Naming.kebab tag) →
        place es tag = place ds tag) := by
  intro place spellings
  refine ⟨fun other h => ?_, fun d i => places_iff, fun es h hn => resolve_congr ?_,
    fun d h => resolve_congr ?_, fun es h hd => resolve_congr ?_⟩
  · have e : ComponentReference.ofTag other = .ofTag tag := by
      rw [ComponentReference.ofTag, ComponentReference.ofTag, h, Naming.pascal_eq_of_kebab_eq h]
    exact congrArg (resolve _) e
  · exact find?_key_perm (fun d : ComponentDefinition => Naming.kebab d.name) hn h
  · exact find?_key_concat (fun d : ComponentDefinition => Naming.kebab d.name) h
  · exact find?_key_sublist (fun d : ComponentDefinition => Naming.kebab d.name) h hd

/-- a registry with a default export and two exports by name, of which one is named by a spelling of its
tag, in two orders, with a second place for a component and with another component in between -/
theorem resolve_canonical_kit :
    let widget : ComponentDefinition := ⟨"my-widget".toList, "@ui/widget".toList, .default⟩
    let card : ComponentDefinition := ⟨"Card".toList, "@ui/kit".toList, .named⟩
    let panel : ComponentDefinition := ⟨"side-panel".toList, "@ui/kit".toList, .named⟩
    let again : ComponentDefinition := ⟨"My_Widget".toList, "@ui/old".toList, .named⟩
    let chart : ComponentDefinition := ⟨"my.chart".toList, "@ui/chart".toList, .default⟩
    let place ds tag := resolve ⟨ds, "./components/".toList⟩ (.ofTag tag)
    let widgetImport : ComponentImport := ⟨"MyWidget".toList, "@ui/widget".toList, none⟩
    place [widget, card, panel] "MyWidget".toList = widgetImport ∧
      place [widget, card, panel] "Card".toList =
        ⟨"Card".toList, "@ui/kit".toList, some "Card".toList⟩ ∧
      place [widget, card, panel] "side-panel".toList =
        ⟨"SidePanel".toList, "@ui/kit".toList, some "SidePanel".toList⟩ ∧
      place [widget, card, panel] "MY-WIDGET".toList = widgetImport ∧
      place [card, widget, panel] "MyWidget".toList = widgetImport ∧
      place [widget, card, panel, again] "MyWidget".toList = widgetImport ∧
      place [widget, chart, card, panel, chart] "MyWidget".toList = widgetImport := by
  intro widget card panel again chart place widgetImport
  obtain ⟨hother, hplace, hperm, hconcat, hsublist⟩ :=
    resolve_canonical [widget, card, panel] "./components/".toList "MyWidget".toList
  obtain ⟨-, hplaceCard, -, -, -⟩ :=
    resolve_canonical [widget, card, panel] "./components/".toList "Card".toList
  obtain ⟨-, hplacePanel, -, -, -⟩ :=
    resolve_canonical [widget, card, panel] "./components/".toList "side-panel".toList
  have hwidget := ((hplace _ _).1 (.first
    (show [widget, card, panel] = [] ++ widget :: [card, panel] from rfl) (by decide +kernel) nofun
    (.default rfl))).2
  have hcard := ((hplaceCard _ _).1 (.first
    (show [widget, card, panel] = [widget] ++ card :: [panel] from rfl) (by decide +kernel)
    (by decide +kernel) (.name rfl (by decide)))).2
  have hpanel := ((hplacePanel _ _).1 (.first
    (show [widget, card, panel] = [widget, card] ++ panel :: [] from rfl) (by decide +kernel)
    (by decide +kernel) (.pascal rfl (by decide)))).2
  refine ⟨hwidget, hcard, hpanel, (hother _ (by decide +kernel)).trans hwidget,
    (hperm _ (.swap ..) (by decide +kernel)).trans hwidget,
    (hconcat again (by decide +kernel)).trans hwidget,
    (hsublist _ ?_ (by decide +kernel)).trans hwidget⟩
  exact .cons_cons _ (.cons _ (.cons_cons _ (.cons_cons _ (.cons _ .slnil))))

end ComponentRegistry

end MarkdownModule

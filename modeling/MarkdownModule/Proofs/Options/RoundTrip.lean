import MarkdownModule.Options.Loader
import MarkdownModule.Proofs.Options.Record

/-!
# Options are read as they are written

Each kind of options is read back from every variation of the value that is written for it.

* `RendererOptions.reads`      the options of the built-in renderer
* `FrameworkOptions.reads`     the options of a framework
* `ComponentDefinition.reads`  the place of a component
* `LoaderOptions.reads`        the options of a loader
* `LoaderOptions.parse_toJson` the text of the options, with any variation of it
-/

namespace MarkdownModule

open Json (Reads Varies Record)

/-! ## the parts of the options -/

theorem ExportKind.reads (k : ExportKind) : Reads ExportKind.ofForm? (.string k.token) k := by
  intro f hf
  cases hf with
  | string h =>
    rw [ExportKind.ofForm?, h, Option.bind_some]
    cases k with
    | default => decide +kernel
    | named => decide +kernel

/-- the flags of the built-in renderer -/
theorem RendererOptions.reads (o : RendererOptions) : Reads RendererOptions.ofForm? o.toJson o := by
  intro f hf
  obtain ⟨r, hr, hfields⟩ := Record.read?_varies hf fieldNames rfl (by decide +kernel)
  have hflag : ∀ {name : String} {b : Option Bool}, r.Holds name (.ofBool? b) →
      r.field? name (Json.Form.optional? Json.Form.bool?) none = some b :=
    fun h => h.optional fun b _ => ⟨nofun, Json.reads_bool b⟩
  simp only [List.forall_mem_cons] at hfields
  obtain ⟨html, gfm, linkify, protocol, formulas, breaks, -⟩ := hfields
  unfold RendererOptions.ofForm?
  dsimp only
  simp only [hr, hflag html, hflag gfm, hflag linkify, hflag protocol, hflag formulas, hflag breaks,
    Option.bind_eq_bind, Option.bind_some]

theorem FrameworkOptions.reads (o : FrameworkOptions) :
    Reads FrameworkOptions.ofForm? o.toJson o := by
  intro f hf
  obtain ⟨r, hr, hfields⟩ := Record.read?_varies hf ["root"] rfl (by simp)
  have hroot : r.field? "root" (Json.Form.optional? Json.Form.text?) none = some o.root :=
    (hfields _ List.mem_cons_self).optional fun s _ => ⟨nofun, Json.reads_text s⟩
  unfold FrameworkOptions.ofForm?
  simp only [hr, hroot, Option.bind_eq_bind, Option.bind_some]

theorem ComponentDefinition.reads (d : ComponentDefinition) :
    Reads ComponentDefinition.ofForm? d.toJson d := by
  intro f hf
  obtain ⟨r, hr, hfields⟩ := Record.read?_varies hf ["name", "modulePath", "exportType"] rfl
    (by decide +kernel)
  simp only [List.forall_mem_cons] at hfields
  obtain ⟨name, path, kind, -⟩ := hfields
  have hname := name.need? (Json.reads_text d.name) nofun
  have hpath := path.need? (Json.reads_text d.modulePath) nofun
  have hkind := kind.field? (ExportKind.reads d.exportKind) .default nofun
  unfold ComponentDefinition.ofForm?
  simp only [hr, hname, hpath, hkind, Option.bind_eq_bind, Option.bind_some]

/-! ## the options of a loader -/

namespace LoaderOptions

theorem reads (o : LoaderOptions) : Reads ofForm? o.toJson o := by
  intro f hf
  obtain ⟨r, hr, hfields⟩ := Record.read?_varies hf fieldNames rfl (by decide +kernel)
  simp only [List.forall_mem_cons] at hfields
  obtain ⟨mode, renderer, path, components, vue, react, -⟩ := hfields
  have hmode := mode.optional fun ts _ =>
    ⟨nofun, Json.reads_list fun t _ => Json.reads_text t⟩
  have hrenderer := renderer.optional fun p _ => ⟨nofun, RendererOptions.reads p⟩
  have hpath := path.optional fun s _ => ⟨nofun, Json.reads_text s⟩
  have hcomponents := components.field?
    (Json.reads_list fun d _ => ComponentDefinition.reads d) [] nofun
  have hvue := vue.field? (FrameworkOptions.reads o.vue) {} nofun
  have hreact := react.field? (FrameworkOptions.reads o.react) {} nofun
  unfold ofForm?
  simp only [hr, hmode, hrenderer, hpath, hcomponents, hvue, hreact, Option.bind_eq_bind,
    Option.bind_some]

end LoaderOptions

/-! ## the text of the options -/

theorem Json.Value.WellFormed.ofFields {fields : List (String × Json.Value)}
    (hnodup : (fields.map Prod.fst).Nodup) (h : ∀ p ∈ fields, p.2.WellFormed) :
    (Json.Value.ofFields fields).WellFormed := by
  refine .object ?_ fun m hm => ?_
  · rw [Record.keys_fields]
    exact hnodup.map fun s t e => String.toList_inj.1 e
  · obtain ⟨p, hp, rfl⟩ := List.mem_map.1 hm
    exact h p hp

theorem Json.Value.WellFormed.optional {α : Type} {w : α → Json.Value} (o : Option α)
    (h : ∀ a, (w a).WellFormed) : ((o.map w).getD .null).WellFormed := by
  cases o with
  | none => exact .null
  | some a => exact h a

theorem Json.Value.WellFormed.list {α : Type} {w : α → Json.Value} (as : List α)
    (h : ∀ a, (w a).WellFormed) : (Json.Value.array (as.map w)).WellFormed := by
  refine .array fun v hv => ?_
  obtain ⟨a, -, rfl⟩ := List.mem_map.1 hv
  exact h a

open Json.Value (WellFormed)

theorem RendererOptions.wellFormed_toJson (o : RendererOptions) : o.toJson.WellFormed := by
  refine .ofFields (show fieldNames.Nodup by decide +kernel) ?_
  simp only [List.forall_mem_cons]
  exact ⟨.optional _ .bool, .optional _ .bool, .optional _ .bool, .optional _ .bool,
    .optional _ .bool, .optional _ .bool, fun p hp => absurd hp List.not_mem_nil⟩

theorem FrameworkOptions.wellFormed_toJson (o : FrameworkOptions) : o.toJson.WellFormed := by
  refine .ofFields (List.nodup_singleton _) fun p hp => ?_
  rw [List.mem_singleton.1 hp]
  exact .optional _ .string

theorem ComponentDefinition.wellFormed_toJson (d : ComponentDefinition) : d.toJson.WellFormed := by
  refine .ofFields (show ["name", "modulePath", "exportType"].Nodup by decide +kernel) ?_
  simp only [List.forall_mem_cons]
  exact ⟨.string _, .string _, .string _, fun p hp => absurd hp List.not_mem_nil⟩

namespace LoaderOptions

theorem wellFormed_toJson (o : LoaderOptions) : o.toJson.WellFormed := by
  refine .ofFields (show fieldNames.Nodup by decide +kernel) ?_
  simp only [List.forall_mem_cons]
  exact ⟨.optional _ fun ts => .list ts .string, .optional _ RendererOptions.wellFormed_toJson,
    .optional _ .string, .list _ ComponentDefinition.wellFormed_toJson, o.vue.wellFormed_toJson,
    o.react.wellFormed_toJson, fun p hp => absurd hp List.not_mem_nil⟩

theorem parse_of_writes {o : LoaderOptions} {f : Json.Form} {s : Text} (hf : Varies o.toJson f)
    (hs : Json.WritesText f s) : parse s = .ok o := by
  unfold parse
  rw [hs.parseForm?_eq]
  dsimp only
  rw [reads o f hf]

/-- **The options are read back from their text,** and from every text of a variation: with the
fields of any of its objects in another order, with unknown fields, and without fields that are
null. -/
theorem parse_toJson (o : LoaderOptions) :
    parse o.toJson.toText = .ok o ∧
      ∀ f s, Varies o.toJson f → Json.WritesText f s → parse s = .ok o := by
  refine ⟨?_, fun f s hf hs => parse_of_writes hf hs⟩
  obtain ⟨f, hf, hw⟩ := Json.writes_of_wellFormed o.wellFormed_toJson
  have hs := Json.WritesText.mk Json.gap_nil hw Json.gap_nil
  rw [List.append_nil] at hs
  exact parse_of_writes hf hs

/-- Options are read with two unknown fields and without three that are null. -/
theorem parse_toJson_varied :
    parse ("\x7b\"x\":[1e999],\"react\":\x7b\x7d,\"componentImportPrefix\":\"./c/\"," ++
        "\"components\":[],\"vue\":\x7b\"y\":null\x7d\x7d").toList =
      .ok { pathStart := some "./c/".toList } := by
  obtain ⟨x, wx, tx⟩ := Json.writesUnits_flatMap "x".toList
  obtain ⟨y, wy, ty⟩ := Json.writesUnits_flatMap "y".toList
  obtain ⟨react, wreact, treact⟩ := Json.writesUnits_flatMap "react".toList
  obtain ⟨path, wpath, tpath⟩ := Json.writesUnits_flatMap "componentImportPrefix".toList
  obtain ⟨start, wstart, tstart⟩ := Json.writesUnits_flatMap "./c/".toList
  obtain ⟨components, wcomponents, tcomponents⟩ := Json.writesUnits_flatMap "components".toList
  obtain ⟨vue, wvue, tvue⟩ := Json.writesUnits_flatMap "vue".toList
  refine (parse_toJson _).2 (.object ([(x, .array [.number "1e999".toList]), (react, .object [])] ++
    [(path, .string start), (components, .array []), (vue, .object [(y, .null)])])) _ ?_ ?_
  · have hroot : ∀ {key us}, Json.unitsText? us = some key → key ≠ "root".toList →
        Varies (FrameworkOptions.toJson {}) (.object [(us, .null)]) := by
      intro key us hus hkey
      refine .object [] [(us, .null)] (.leftOut .nil) (fun m hm => ?_) (List.Perm.refl _)
      rw [List.mem_singleton.1 hm]
      exact ⟨key, hus, fun h => hkey (List.mem_singleton.1 h)⟩
    have hempty : Varies (FrameworkOptions.toJson {}) (.object []) :=
      .object [] [] (.leftOut .nil)
        (fun m hm => absurd hm List.not_mem_nil) (List.Perm.refl _)
    refine .object _ [(x, .array [.number "1e999".toList])] (.leftOut (.leftOut (.kept tpath
      (.string tstart) (.kept tcomponents (.array .nil) (.kept tvue (hroot ty (by decide))
        (.kept treact hempty .nil)))))) (fun m hm => ?_) ?_
    · rw [List.mem_singleton.1 hm]
      exact ⟨_, tx, by decide +kernel⟩
    · exact List.perm_append_comm.trans (List.Perm.append_left _ (List.Perm.swap _ _ []))
  · have hdigit : Json.DigitRow ['1'] := ⟨by decide, fun c hc => List.mem_singleton.1 hc ▸ rfl⟩
    have hnine : Json.DigitRow "999".toList :=
      ⟨by decide, List.all_eq_true.1 (by decide +kernel)⟩
    have hnumber : Json.NumberSpelling "1e999".toList :=
      .positive (.mk hdigit (by decide) .absent (.present (.inl rfl) .absent hnine))
    have hgap := Json.gap_nil
    have hwrites := Json.WritesText.mk hgap (.object
      (.member hgap wx hgap hgap (.array (.lastItem hgap (.number hnumber) hgap)) hgap
      (.member hgap wreact hgap hgap (.emptyObject hgap) hgap
      (.member hgap wpath hgap hgap (.string wstart) hgap
      (.member hgap wcomponents hgap hgap (.emptyArray hgap) hgap
      (.lastMember hgap wvue hgap hgap (.object (.lastMember hgap wy hgap hgap .null hgap))
        hgap)))))) hgap
    refine Eq.subst (motive := Json.WritesText _) ?_ hwrites
    decide +kernel

end LoaderOptions

end MarkdownModule

import MarkdownModule.Proofs.Loader.Assembly

/-!
# The outputs of a document are independent of one another

What a module exports for a mode does not depend on the other modes, and the path of a document
shows in one export alone.

* `Loader.Parts.output_congr`    a part that no mode needs is not written
* `Loader.load_of_parts`         a document with parts is loaded
* `Script.Module.IsPart`         a module that holds some lines of another
* `Loader.load_independent`      fewer modes give a part of the module, with the same expressions
-/

namespace MarkdownModule

def ModeSet.Subset (s t : ModeSet) : Prop := ∀ m, s.contains m = true → t.contains m = true

theorem ModeSet.Subset.needsHtml {s t : ModeSet} (h : s.Subset t) (hs : s.needsHtml = true) :
    t.needsHtml = true := by
  have hor : (s.contains .html || s.contains .vue || s.contains .react) = true := hs
  rw [Bool.or_eq_true, Bool.or_eq_true] at hor
  rcases hor with (hm | hm) | hm
  · exact needsHtml_of_contains (by decide) (h _ hm)
  · exact needsHtml_of_contains (by decide) (h _ hm)
  · exact needsHtml_of_contains (by decide) (h _ hm)

/-- the imports and the statements are among those of another module, in their order, and the
exports are those of the other module with some names -/
structure Script.Module.IsPart (m n : Script.Module) (names : List Text) : Prop where
  imports : m.imports.Sublist n.imports
  statements : m.statements.Sublist n.statements
  exports : m.exports = n.exports.filter (fun e => e.1 ∈ names)

namespace Loader

namespace Parts

/-! ## parts that no mode needs -/

/-- the parts agree in all that the modes need -/
structure Agree (p q : Parts) (modes : ModeSet) : Prop where
  extraction : p.extraction = q.extraction
  html : modes.needsHtml = true → p.html = q.html
  vue : modes.contains .vue = true → p.vue = q.vue
  react : modes.contains .react = true → p.react = q.react

section
variable {p q : Parts} {o : LoaderOptions} {path : Text}

theorem Agree.expression (h : p.Agree q o.modes) {m : Mode} (hm : o.modes.contains m = true) :
    p.expression path m = q.expression path m := by
  have hhtml : m ≠ .body ∧ m ≠ .fileMeta → p.html = q.html := fun hne =>
    h.html (ModeSet.needsHtml_of_contains hne hm)
  unfold Parts.expression
  cases m with
  | html => exact congrArg Script.stringLiteral (hhtml (by decide))
  | body => rw [h.extraction]
  | fileMeta => rfl
  | vue => rw [hhtml (by decide)]
  | react => rw [h.react hm]

theorem Agree.references (h : p.Agree q o.modes) : p.references o = q.references o := by
  cases ha : o.modes.contains .vue || o.modes.contains .react with
  | false => rw [p.references_plain o ha, q.references_plain o ha]
  | true =>
    rw [p.references_active o ha, q.references_active o ha, h.html]
    exact (Bool.or_eq_true_iff.1 ha).elim (ModeSet.needsHtml_of_contains (by decide))
      (ModeSet.needsHtml_of_contains (by decide))

/-- **A part that no mode needs is not written.** -/
theorem output_congr (h : p.Agree q o.modes) : p.output o path = q.output o path := by
  have himports : p.imports o = q.imports o := by
    unfold imports componentImports
    rw [h.references]
  have hstatements : p.statements o = q.statements o := by
    unfold statements
    split
    · next hv => rw [h.vue hv]
    · rfl
  have hexports : p.exportsFor o path Mode.all = q.exportsFor o path Mode.all := by
    unfold exportsFor
    rw [h.extraction]
    refine congrArg _ (List.map_congr_left fun m hm => ?_)
    rw [h.expression (List.mem_filter.1 hm).2]
  have hmodule : p.asModule o path = q.asModule o path := by
    unfold asModule
    rw [himports, hstatements, hexports]
  rw [output_eq, output_eq, hmodule, h.extraction, h.references]

end

end Parts

section
variable {o : LoaderOptions} {c : Collaborators} {l : Loader} {source path : Text} {p : Parts}

/-- the template of a framework is the one of the parts, if its mode is active -/
theorem compiled?_eq {modes : ModeSet} {f : Framework} {fo : FrameworkOptions}
    {compiler : Option Collaborator} {html t : Text}
    (h : modes.contains f.mode = true → ∃ compile, compiler = some compile ∧
      (⟨f, fo.rootClass, compile⟩ : FrameworkBackend).compiled html = .ok t) :
    compiled? modes f fo compiler html = .ok (if modes.contains f.mode then t else []) := by
  cases hc : modes.contains f.mode with
  | true =>
    obtain ⟨compile, hcompile, ht⟩ := h hc
    unfold compiled?
    rw [if_pos hc, hcompile]
    exact ht
  | false => exact compiled?_inactive hc fo compiler html

/-- **A document with parts is loaded.** -/
theorem load_of_parts (hl : build o c = .ok l) (hp : p.Of o c source) :
    l.load source path = .ok (p.output o path) := by
  cases hn : o.modes.needsHtml with
  | false =>
    obtain ⟨-, hv, hr⟩ := ModeSet.of_not_needsHtml hn
    rw [load_plain hl hp.extraction hn]
    refine congrArg Except.ok (Parts.output_congr ⟨rfl, fun h => ?_, fun h => ?_, fun h => ?_⟩)
    · exact absurd (hn.symm.trans h) Bool.false_ne_true
    · exact absurd (hv.symm.trans h) Bool.false_ne_true
    · exact absurd (hr.symm.trans h) Bool.false_ne_true
  | true =>
    obtain ⟨channel, hchannel, hx⟩ := hp.html hn
    obtain rfl : l.channel = channel := by
      have h := (of_build hl).2.2.1
      rw [hchannel] at h
      exact (Except.ok.inj h).symm
    rw [load_rendered hl hp.extraction hn hx, compiled?_eq hp.vue, compiled?_eq hp.react]
    refine congrArg Except.ok (Parts.output_congr ⟨rfl, fun _ => rfl, fun h => ?_, fun h => ?_⟩)
    · exact if_pos h
    · exact if_pos h

end

/-! ## fewer modes -/

section
variable {o : LoaderOptions} {c : Collaborators} {source path : Text} {p : Parts}
  {tokens tokens' : Option (List Text)}

theorem Parts.Of.mono (h : (ModeSet.resolve tokens).Subset (.resolve tokens'))
    (hp : p.Of { o with mode := tokens' } c source) : p.Of { o with mode := tokens } c source where
  extraction := hp.extraction
  html hn := hp.html (h.needsHtml hn)
  vue hv := hp.vue (h _ hv)
  react hr := hp.react (h _ hr)

theorem Parts.componentImports_sublist (h : (ModeSet.resolve tokens).Subset (.resolve tokens'))
    (p : Parts) : (p.componentImports { o with mode := tokens }).Sublist
      (p.componentImports { o with mode := tokens' }) := by
  unfold componentImports
  cases ha : (ModeSet.resolve tokens).contains .vue || (ModeSet.resolve tokens).contains .react with
  | false =>
    rw [p.references_plain { o with mode := tokens } ha]
    exact List.nil_sublist _
  | true =>
    have hb : ((ModeSet.resolve tokens').contains .vue ||
        (ModeSet.resolve tokens').contains .react) = true := by
      rw [Bool.or_eq_true] at ha ⊢
      exact ha.imp (h _) (h _)
    rw [p.references_active { o with mode := tokens } ha,
      p.references_active { o with mode := tokens' } hb]
    exact List.Sublist.refl _

theorem sublist_of_imp {α : Type} {a b : Bool} (h : a = true → b = true) (x : α) :
    (if a then [x] else []).Sublist (if b then [x] else []) := by
  cases a with
  | false => exact List.nil_sublist _
  | true => rw [h rfl]

/-- the exports of fewer modes are those exports of more modes -/
theorem Parts.exportsFor_filter (h : (ModeSet.resolve tokens).Subset (.resolve tokens'))
    (p : Parts) (path : Text) :
    p.exportsFor { o with mode := tokens } path Mode.all =
      (p.exportsFor { o with mode := tokens' } path Mode.all).filter fun e =>
        e.1 ∈ "attributes".toList :: (ModeSet.resolve tokens).toList.map Mode.exportName := by
  unfold exportsFor
  rw [List.filter_cons_of_pos (by simp), List.filter_map, List.filter_filter]
  refine congrArg _ (congrArg _ (List.filter_congr fun m hm => ?_))
  rw [Bool.eq_iff_iff, Bool.and_eq_true]
  have hmem : m.exportName ∈ "attributes".toList ::
      (ModeSet.resolve tokens).toList.map Mode.exportName ↔
        (ModeSet.resolve tokens).contains m = true := by
    rw [List.mem_cons, or_iff_right m.exportName_ne_attributes, List.mem_map]
    constructor
    · rintro ⟨n, hn, e⟩
      rw [← Mode.exportName_inj e]
      exact (List.mem_filter.1 hn).2
    · exact fun hc => ⟨m, List.mem_filter.2 ⟨hm, hc⟩, rfl⟩
  show (ModeSet.resolve tokens).contains m = true ↔ _
  dsimp only [Function.comp_apply]
  rw [decide_eq_true_eq, hmem]
  exact ⟨fun hc => ⟨hc, h m hc⟩, fun hc => hc.1⟩

theorem Parts.isPart (h : (ModeSet.resolve tokens).Subset (.resolve tokens')) (p : Parts)
    (path : Text) :
    (p.asModule { o with mode := tokens } path).IsPart (p.asModule { o with mode := tokens' } path)
      ("attributes".toList :: (ModeSet.resolve tokens).toList.map Mode.exportName) where
  imports := (p.componentImports_sublist h).append (sublist_of_imp (h .react) Script.reactImport)
  statements := sublist_of_imp (h .vue) _
  exports := p.exportsFor_filter h path

theorem Parts.exportNames_filter (h : (ModeSet.resolve tokens).Subset (.resolve tokens'))
    (p : Parts) (path : Text) :
    (p.output { o with mode := tokens } path).exports =
      (p.output { o with mode := tokens' } path).exports.filter
        (· ∈ "attributes".toList :: (ModeSet.resolve tokens).toList.map Mode.exportName) := by
  rw [output_eq, output_eq]
  show (p.exportsFor _ path Mode.all).map Prod.fst =
    ((p.exportsFor _ path Mode.all).map Prod.fst).filter _
  rw [p.exportsFor_filter h path, List.filter_map]
  rfl

end

/-! ## another path -/

theorem Parts.expression_path (p : Parts) {m : Mode} (hm : m ≠ .fileMeta) (path path' : Text) :
    p.expression path' m = p.expression path m := by
  cases m with
  | fileMeta => exact absurd rfl hm
  | html => rfl
  | body => rfl
  | vue => rfl
  | react => rfl

/-- the path of a document shows in the export of its facts alone -/
theorem Parts.exportsFor_path (p : Parts) (o : LoaderOptions) (path path' : Text) (ms : List Mode) :
    p.exportsFor o path' ms = (p.exportsFor o path ms).map fun e =>
      if e.1 = Mode.fileMeta.exportName then (e.1, p.expression path' .fileMeta) else e := by
  have hhead : "attributes".toList ≠ Mode.fileMeta.exportName :=
    Ne.symm (Mode.exportName_ne_attributes .fileMeta)
  have htail : ∀ m : Mode, (m.exportName, p.expression path' m) =
      if m.exportName = Mode.fileMeta.exportName then (m.exportName, p.expression path' .fileMeta)
      else (m.exportName, p.expression path m) := by
    intro m
    by_cases hm : m = .fileMeta
    · rw [hm, if_pos rfl]
    · rw [if_neg fun e => hm (Mode.exportName_inj e), p.expression_path hm path]
  unfold exportsFor
  rw [List.map_cons, List.map_map]
  refine congrArg₂ List.cons ?_ (List.map_congr_left fun m _ => htail m)
  exact (if_neg hhead).symm

theorem Parts.output_path {o : LoaderOptions} (h : o.modes.contains .fileMeta = false) (p : Parts)
    (path path' : Text) : p.output o path' = p.output o path := by
  have hexports : p.exportsFor o path' Mode.all = p.exportsFor o path Mode.all := by
    unfold exportsFor
    refine congrArg _ (List.map_congr_left fun m hm => ?_)
    have hne : m ≠ .fileMeta := by
      rintro rfl
      exact Bool.false_ne_true (h.symm.trans (List.mem_filter.1 hm).2)
    rw [p.expression_path hne path]
  rw [output_eq, output_eq, asModule, hexports]
  rfl

/-! ## independence -/

/-- **The outputs of a document are independent of one another.**  A loader for fewer modes loads what
a loader for more modes loads, and writes a part of its module: the same expressions under the same
names.  Another path changes the export of the facts about the file at most. -/
theorem load_independent (o : LoaderOptions) (c : Collaborators) :
    (∀ tokens tokens' l l', build { o with mode := tokens } c = .ok l →
        build { o with mode := tokens' } c = .ok l' →
        (ModeSet.resolve tokens).Subset (.resolve tokens') →
        ∀ source path out', l'.load source path = .ok out' →
          ∃ (p : Parts) (out : LoadOutput), l.load source path = .ok out ∧
            p.Of { o with mode := tokens' } c source ∧
            out = p.output { o with mode := tokens } path ∧
            out' = p.output { o with mode := tokens' } path ∧
            out.code = (p.asModule { o with mode := tokens } path).code ∧
            out'.code = (p.asModule { o with mode := tokens' } path).code ∧
            out.attributes = out'.attributes ∧
            out.exports = out'.exports.filter
              (· ∈ "attributes".toList :: (ModeSet.resolve tokens).toList.map Mode.exportName) ∧
            (p.asModule { o with mode := tokens } path).IsPart
              (p.asModule { o with mode := tokens' } path)
              ("attributes".toList :: (ModeSet.resolve tokens).toList.map Mode.exportName)) ∧
      ∀ l, build o c = .ok l → ∀ source path path',
        (o.modes.contains .fileMeta = false → l.load source path' = l.load source path) ∧
        (∀ e, l.load source path' = .error e ↔ l.load source path = .error e) ∧
        ∀ out, l.load source path = .ok out → ∃ (p : Parts) (out' : LoadOutput),
          l.load source path' = .ok out' ∧ p.Of o c source ∧
          out.code = (p.asModule o path).code ∧ out'.code = (p.asModule o path').code ∧
          out'.exports = out.exports ∧ out'.attributes = out.attributes ∧
          out'.components = out.components ∧
          (p.asModule o path').imports = (p.asModule o path).imports ∧
          (p.asModule o path').statements = (p.asModule o path).statements ∧
          (p.asModule o path').exports = (p.asModule o path).exports.map fun e =>
            if e.1 = "meta".toList then (e.1, p.expression path' .fileMeta) else e := by
  constructor
  · intro tokens tokens' l l' hl hl' hsub source path out' h
    obtain ⟨p, hp, hout⟩ := exists_parts hl' h
    refine ⟨p, _, load_of_parts hl (hp.mono hsub), hp, rfl, hout, ?_, ?_, ?_, ?_, p.isPart hsub path⟩
    · rw [Parts.output_eq]
    · rw [hout, Parts.output_eq]
    · rw [hout]
      rfl
    · rw [hout]
      exact p.exportNames_filter hsub path
  · intro l hl source path path'
    refine ⟨fun hm => ?_, fun e => ?_, fun out h => ?_⟩
    · rw [load_eq_gather hl, load_eq_gather hl]
      cases gather o c l.channel source with
      | error e => rfl
      | ok p => exact congrArg Except.ok (p.output_path hm path path')
    · rw [load_eq_gather hl, load_eq_gather hl]
      cases gather o c l.channel source with
      | error e' => exact Iff.rfl
      | ok p => exact iff_of_false (fun h => nomatch h) fun h => nomatch h
    · obtain ⟨p, hp, rfl⟩ := exists_parts hl h
      refine ⟨p, _, load_of_parts hl hp, hp, ?_, ?_, rfl, rfl, rfl, rfl, rfl,
        p.exportsFor_path o path path' Mode.all⟩
      · rw [Parts.output_eq]
      · rw [Parts.output_eq]

/-- A document is loaded for its facts alone as it is for its HTML and its facts. -/
theorem load_independent_fewer :
    let o : LoaderOptions := {}
    let c : Collaborators := { renderFunction := some fun body => .ok body }
    let fewer : Option (List Text) := some ["meta".toList]
    let more : Option (List Text) := some ["html".toList, "meta".toList]
    ∃ l l' out out', build { o with mode := fewer } c = .ok l ∧
      build { o with mode := more } c = .ok l' ∧
      (ModeSet.resolve fewer).Subset (.resolve more) ∧
      l'.load "a".toList "p.md".toList = .ok out' ∧ l.load "a".toList "p.md".toList = .ok out ∧
      out.exports = out'.exports.filter (· ∈ ["attributes".toList, "meta".toList]) := by
  intro o c fewer more
  have hfewer : ModeSet.resolve fewer = { fileMeta := true } := by decide +kernel
  have hmore : ModeSet.resolve more = { html := true, fileMeta := true } := by decide +kernel
  have hsub : (ModeSet.resolve fewer).Subset (.resolve more) := by
    rw [hfewer, hmore]
    intro m
    cases m <;> decide
  obtain ⟨l, hl⟩ : ∃ l, build { o with mode := fewer } c = .ok l := ⟨_, rfl⟩
  obtain ⟨l', hl'⟩ : ∃ l', build { o with mode := more } c = .ok l' := ⟨_, rfl⟩
  have hx : Frontmatter.extract "a".toList = .ok ⟨.emptyObject, "a".toList⟩ := by cbv
  have hp : (⟨⟨.emptyObject, "a".toList⟩, "a".toList, [], []⟩ : Parts).Of { o with mode := more } c
      "a".toList := by
    refine ⟨hx, fun _ => ⟨_, rfl, rfl⟩, fun h => ?_, fun h => ?_⟩
    · change (ModeSet.resolve more).contains .vue = true at h
      rw [hmore] at h
      exact absurd h (by decide)
    · change (ModeSet.resolve more).contains .react = true at h
      rw [hmore] at h
      exact absurd h (by decide)
  have hout' : l'.load "a".toList "p.md".toList = _ := load_of_parts hl' hp
  obtain ⟨p, out, hout, -, -, -, -, -, -, hexports, -⟩ :=
    (load_independent o c).1 fewer more l l' hl hl' hsub _ _ _ hout'
  rw [hfewer] at hexports
  exact ⟨l, l', out, _, hl, hl', hsub, hout', hout, hexports⟩

end Loader

end MarkdownModule

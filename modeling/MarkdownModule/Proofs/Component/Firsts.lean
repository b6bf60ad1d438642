import MarkdownModule.Component.Registry
import MarkdownModule.Proofs.Naming.Spelling

/-!
# First occurrences

References that agree in their kebab name are one reference, and import statements that agree in
their key are one statement.  Both lists keep what comes first.

* `Script.Module.addComponents_eq`       the imports of a module are the first ones of each key
* `ComponentReference.exists_mem_scan`   a component that a document names has a reference
-/

namespace MarkdownModule

/-! ## lists -/

section
variable {α β : Type} [DecidableEq β]

/-- the members of a list without those whose key has occurred before -/
def firstsBy (key : α → β) : List α → List α
  | [] => []
  | a :: as => a :: (firstsBy key as).filter (fun b => key b ≠ key a)

theorem firstsBy_cons (key : α → β) (a : α) (as : List α) :
    firstsBy key (a :: as) = a :: (firstsBy key as).filter (fun b => key b ≠ key a) := rfl

theorem mem_of_mem_firstsBy {key : α → β} {a : α} {as : List α} (h : a ∈ firstsBy key as) :
    a ∈ as := by
  induction as with
  | nil => exact h
  | cons b as ih =>
    rcases List.mem_cons.1 h with rfl | h
    · exact List.mem_cons_self
    · exact List.mem_cons_of_mem _ (ih (List.mem_filter.1 h).1)

theorem exists_mem_firstsBy {key : α → β} {a : α} {as : List α} (h : a ∈ as) :
    ∃ b ∈ firstsBy key as, key b = key a := by
  induction as with
  | nil => exact absurd h List.not_mem_nil
  | cons b as ih =>
    rw [firstsBy_cons]
    by_cases hk : key b = key a
    · exact ⟨b, List.mem_cons_self, hk⟩
    · have ha : a ∈ as := (List.mem_cons.1 h).resolve_left (by rintro rfl; exact hk rfl)
      obtain ⟨c, hc, e⟩ := ih ha
      refine ⟨c, List.mem_cons_of_mem _ (List.mem_filter.2 ⟨hc, ?_⟩), e⟩
      rw [decide_eq_true_eq, e]
      exact fun e' => hk e'.symm

/-- two first members with one key are one member -/
theorem eq_of_mem_firstsBy {key : α → β} {a b : α} {as : List α} (ha : a ∈ firstsBy key as)
    (hb : b ∈ firstsBy key as) (h : key a = key b) : a = b := by
  induction as with
  | nil => exact absurd ha List.not_mem_nil
  | cons c as ih =>
    have hne : ∀ {d}, d ∈ (firstsBy key as).filter (fun b => key b ≠ key c) → key d ≠ key c :=
      fun hd => of_decide_eq_true (List.mem_filter.1 hd).2
    rcases List.mem_cons.1 ha with rfl | ha
    · rcases List.mem_cons.1 hb with rfl | hb
      · rfl
      · exact absurd h.symm (hne hb)
    · rcases List.mem_cons.1 hb with rfl | hb
      · exact absurd h (hne ha)
      · exact ih (List.mem_filter.1 ha).1 (List.mem_filter.1 hb).1

theorem nodup_firstsBy (key : α → β) (as : List α) : ((firstsBy key as).map key).Nodup := by
  induction as with
  | nil => exact List.nodup_nil
  | cons a as ih =>
    rw [firstsBy_cons, List.map_cons, List.nodup_cons]
    refine ⟨fun h => ?_, ih.sublist (List.filter_sublist.map key)⟩
    obtain ⟨b, hb, e⟩ := List.mem_map.1 h
    exact of_decide_eq_true (List.mem_filter.1 hb).2 e

theorem firstsBy_map {γ : Type} (f : γ → α) (key : α → β) (cs : List γ) :
    firstsBy key (cs.map f) = (firstsBy (key ∘ f) cs).map f := by
  induction cs with
  | nil => rfl
  | cons c cs ih =>
    rw [List.map_cons, firstsBy_cons, ih, firstsBy_cons, List.map_cons, List.filter_map]
    rfl

end

/-! ## imports -/

namespace Script.Module

theorem hasImport_iff (m : Module) (s : Text) :
    m.hasImport s = true ↔ importKey s ∈ m.imports.map importKey := by
  unfold hasImport
  rw [List.any_eq_true, List.mem_map]
  exact exists_congr fun t => and_congr_right fun _ => beq_iff_eq

theorem imports_addImport (m : Module) (s : Text) :
    (m.addImport s).1.imports = if m.hasImport s then m.imports else m.imports ++ [s] := by
  unfold addImport
  split <;> rfl

theorem filter_of_hasImport {m : Module} {s : Text} (h : m.hasImport s = true) (ss : List Text) :
    (s :: ss.filter (fun t => importKey t ≠ importKey s)).filter (fun t => !m.hasImport t) =
      ss.filter (fun t => !m.hasImport t) := by
  rw [List.filter_cons_of_neg (by rw [h]; decide), List.filter_filter]
  refine List.filter_congr fun t _ => ?_
  cases ht : m.hasImport t with
  | true => rfl
  | false =>
    have hk : importKey t ≠ importKey s := by
      intro e
      rw [← Bool.not_eq_true, hasImport_iff, e, ← hasImport_iff] at ht
      exact ht h
    rw [decide_eq_true hk]
    rfl

theorem filter_of_not_hasImport {m : Module} {s : Text} (h : m.hasImport s = false)
    (ss : List Text) :
    (s :: ss.filter (fun t => importKey t ≠ importKey s)).filter (fun t => !m.hasImport t) =
      s :: ss.filter (fun t => !(m.addImport s).1.hasImport t) := by
  rw [List.filter_cons_of_pos (by rw [h]; decide), List.filter_filter]
  refine congrArg (s :: ·) (List.filter_congr fun t _ => ?_)
  have ht : (m.addImport s).1.hasImport t =
      (m.hasImport t || decide (importKey t = importKey s)) := by
    rw [Bool.eq_iff_iff, Bool.or_eq_true, decide_eq_true_eq, hasImport_iff, imports_addImport, h,
      if_neg Bool.false_ne_true, List.map_append, List.mem_append, ← hasImport_iff,
      List.map_singleton, List.mem_singleton]
  rw [ht, Bool.not_or, decide_not]

/-- the imports after some more: those of each new key that come first -/
theorem imports_foldl_addImport (m : Module) (ss : List Text) :
    (ss.foldl (fun m s => (m.addImport s).1) m).imports =
      m.imports ++ (firstsBy importKey ss).filter (fun s => !m.hasImport s) := by
  induction ss generalizing m with
  | nil => exact (List.append_nil _).symm
  | cons s ss ih =>
    rw [List.foldl_cons, ih, firstsBy_cons, imports_addImport]
    by_cases h : m.hasImport s = true
    · have e : (m.addImport s).1 = m := by rw [addImport, if_pos h]
      rw [if_pos h, filter_of_hasImport h, e]
    · rw [if_neg h, filter_of_not_hasImport (Bool.eq_false_iff.2 h), List.append_assoc]
      rfl

theorem rest_foldl_addImport (m : Module) (ss : List Text) :
    (ss.foldl (fun m s => (m.addImport s).1) m).statements = m.statements ∧
      (ss.foldl (fun m s => (m.addImport s).1) m).exports = m.exports := by
  induction ss generalizing m with
  | nil => exact ⟨rfl, rfl⟩
  | cons s ss ih =>
    have e : (m.addImport s).1.statements = m.statements ∧
        (m.addImport s).1.exports = m.exports := by
      unfold addImport
      split <;> exact ⟨rfl, rfl⟩
    rw [List.foldl_cons, (ih _).1, (ih _).2]
    exact e

/-- **The imports of a module are the first ones of each key**, and nothing else changes. -/
theorem addComponents_eq {m : Module} (hm : m.imports = []) (g : ComponentRegistry)
    (rs : List ComponentReference) :
    m.addComponents g rs =
      { m with imports := firstsBy importKey (rs.map fun r => (g.resolve r).statement) } := by
  have e : m.addComponents g rs =
      (rs.map fun r => (g.resolve r).statement).foldl (fun m s => (m.addImport s).1) m := by
    rw [List.foldl_map]
    rfl
  have himports := imports_foldl_addImport m (rs.map fun r => (g.resolve r).statement)
  obtain ⟨hstatements, hexports⟩ :=
    rest_foldl_addImport m (rs.map fun r => (g.resolve r).statement)
  have hnone : ∀ s, m.hasImport s = false := fun s => by
    unfold hasImport
    rw [hm]
    rfl
  rw [hm, List.nil_append, List.filter_eq_self.2 fun s _ => by rw [hnone]; rfl] at himports
  rw [e, ← hstatements, ← hexports, ← himports]

theorem imports_addComponents (g : ComponentRegistry) (rs : List ComponentReference) :
    (empty.addComponents g rs).imports =
      firstsBy importKey (rs.map fun r => (g.resolve r).statement) :=
  congrArg imports (addComponents_eq rfl g rs)

end Script.Module

/-! ## references -/

namespace ComponentReference

theorem firsts_eq_firstsBy (rs : List ComponentReference) : firsts rs = firstsBy kebab rs := by
  induction rs with
  | nil => rfl
  | cons r rs ih => rw [firsts, firstsBy_cons, ih]

theorem exists_of_mem_scan {r : ComponentReference} {html : Text} (h : r ∈ scan html) :
    ∃ n ∈ Html.startTagNames html, Html.isCustom n = true ∧ ofTag n = r := by
  rw [scan, firsts_eq_firstsBy] at h
  obtain ⟨n, hn, e⟩ := List.mem_map.1 (mem_of_mem_firstsBy h)
  exact ⟨n, (List.mem_filter.1 hn).1, (List.mem_filter.1 hn).2, e⟩

theorem exists_mem_scan {n html : Text} (h : n ∈ Html.startTagNames html)
    (hn : Html.isCustom n = true) : ∃ r ∈ scan html, r.pascal = Naming.pascal n := by
  have hm : ofTag n ∈ ((Html.startTagNames html).filter Html.isCustom).map ofTag :=
    List.mem_map.2 ⟨n, List.mem_filter.2 ⟨h, hn⟩, rfl⟩
  obtain ⟨r, hr, e⟩ := (exists_mem_firstsBy hm : ∃ r ∈ firstsBy kebab _, _)
  rw [← firsts_eq_firstsBy] at hr
  obtain ⟨m, -, -, rfl⟩ := exists_of_mem_scan hr
  exact ⟨ofTag m, hr, Naming.pascal_eq_of_kebab_eq e⟩

end ComponentReference

end MarkdownModule

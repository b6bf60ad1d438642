import MarkdownModule.Mode
import MarkdownModule.Proofs.Component.Firsts
import MarkdownModule.Proofs.Html.Settle

/-!
# The bindings of a module

Every import statement that a module keeps binds one name.  The name comes from a Pascal spelling,
while references are told apart by their kebab spelling.

* `Script.bindingFor_inj`                  two Pascal spellings have two bindings
* `ComponentRegistry.bindings_of_imports`  no import binds a name of the module, and two imports bind
                                           one name exactly when their references differ in hyphens
                                           before digits alone
* `ComponentRegistry.binding_twice`        a document whose module binds a name twice
-/

namespace MarkdownModule

/-! ## Pascal spellings -/

namespace Naming

theorem isAlphanum_capitalize {w : Text} (hw : IsWord w) :
    ∀ c ∈ capitalize w, c.isAlphanum = true := by
  have hchar : ∀ c, isWordChar c = true → c.isAlphanum = true := by
    intro c hc
    rcases Bool.or_eq_true_iff.1 hc with h | h
    · exact Bool.or_eq_true_iff.2 (.inl (Bool.or_eq_true_iff.2 (.inr h)))
    · exact Bool.or_eq_true_iff.2 (.inr h)
  cases w with
  | nil => exact absurd rfl hw.ne_nil
  | cons c r =>
    obtain ⟨hc, hr⟩ := List.forall_mem_cons.1 hw.chars
    refine List.forall_mem_cons.2 ⟨?_, fun d hd => hchar d (hr d hd)⟩
    rcases Bool.or_eq_true_iff.1 (hchar c hc) with h | h
    · exact Bool.or_eq_true_iff.2 (.inl (by rw [Char.isAlpha_toUpper_eq_isAlpha]; exact h))
    · rw [toUpper_of_isDigit h]
      exact Bool.or_eq_true_iff.2 (.inr h)

theorem isAlphanum_of_mem_pascal {name : Text} {c : Char} (h : c ∈ pascal name) :
    c.isAlphanum = true := by
  obtain ⟨w, hw, hc⟩ := List.mem_flatMap.1 h
  exact isAlphanum_capitalize (isWord_of_mem_words hw) c hc

/-- the first word of a name begins with the first character, if that is a letter or a digit -/
theorem exists_words_cons {c : Char} (ha : c.isAlphanum = true) (r : Text) :
    ∃ w ws, words (c :: r) = (c.toLower :: w) :: ws := by
  have hs : startsWord none c r.head? = false := Bool.and_false _
  have e : split none (c :: r) = (c.toLower :: (split (some c) r).1, (split (some c) r).2) := by
    rw [split, ha, hs]
    rfl
  refine ⟨(split (some c) r).1, (split (some c) r).2.filter (!·.isEmpty), ?_⟩
  rw [words, e]
  exact List.filter_cons_of_pos rfl

/-- the Pascal spelling of a name that begins with a letter begins with a capital -/
theorem isUpper_head_pascal {name : Text} (h : name.head?.any Char.isAlpha = true) :
    (pascal name).head?.any Char.isUpper = true := by
  cases name with
  | nil => exact h
  | cons c r =>
    obtain ⟨w, ws, hw⟩ := exists_words_cons (Bool.or_eq_true_iff.2 (.inl h)) r
    rw [pascal, hw]
    show (c.toLower.toUpper).isUpper = true
    rw [Char.toUpper_toLower_eq_toUpper, Char.isUpper_toUpper_eq_isAlpha]
    exact h

end Naming

/-! ## bindings -/

def Mode.exportName : Mode → Text
  | .html => "html".toList
  | .body => "body".toList
  | .fileMeta => "meta".toList
  | .vue => "vue".toList
  | .react => "react".toList

namespace Script

def exportNames : List Text := "attributes".toList :: Mode.all.map Mode.exportName

theorem bindingFor_inj {p q : Text} (hp : '_' ∉ p) (hq : '_' ∉ q)
    (h : bindingFor p = bindingFor q) : p = q := by
  unfold bindingFor at h
  split at h
  · split at h
    · exact List.append_cancel_right h
    · exact absurd (by rw [← h]; simp) hq
  · split at h
    · exact absurd (by rw [h]; simp) hp
    · exact h

theorem bindingFor_not_reserved {p : Text} (hp : '_' ∉ p) : bindingFor p ∉ reservedBindings := by
  unfold bindingFor
  split
  · next h =>
    simp only [reservedBindings, List.mem_cons, List.not_mem_nil, or_false] at h
    rcases h with rfl | rfl | rfl
    · decide
    · decide
    · decide
  · next h => exact h

theorem bindingFor_not_exported {p : Text} (hp : p.head?.any Char.isUpper = true) :
    bindingFor p ∉ exportNames := by
  have hb : (bindingFor p).head?.any Char.isUpper = true := by
    unfold bindingFor
    split
    · cases p with
      | nil => exact hp
      | cons c r => exact hp
    · exact hp
  have he : ∀ n ∈ exportNames, n.head?.any Char.isUpper = false := by decide
  intro hm
  rw [he _ hm] at hb
  exact Bool.false_ne_true hb

end Script

/-- the name of a start tag begins with a letter -/
theorem Html.isAlpha_head_of_mem_startTagNames {n html : Text} (h : n ∈ startTagNames html) :
    n.head?.any Char.isAlpha = true := by
  obtain ⟨a, r, -, hs, -⟩ := mem_startTagNames_iff.1 h
  unfold startName? at hs
  split at hs
  · next ha =>
    rw [← Option.some.inj hs]
    cases r with
    | nil => exact ha.2
    | cons c r =>
      have hc : isNameChar c = true := by
        have : c.isAlpha = true := ha.2
        simp [isNameChar, Char.isAlphanum, this]
      rw [List.takeWhile_cons_of_pos hc]
      exact ha.2
  · exact absurd hs (by simp)

namespace ComponentReference

theorem pascal_of_mem_scan {r : ComponentReference} {html : Text} (h : r ∈ scan html) :
    '_' ∉ r.pascal ∧ r.pascal.head?.any Char.isUpper = true := by
  obtain ⟨n, hn, -, rfl⟩ := exists_of_mem_scan h
  constructor
  · intro hm
    exact absurd (Naming.isAlphanum_of_mem_pascal hm) (by decide)
  · exact Naming.isUpper_head_pascal (Html.isAlpha_head_of_mem_startTagNames hn)

end ComponentReference

/-! ## imports -/

namespace ComponentRegistry

/-- the references whose import statements a module keeps -/
def kept (g : ComponentRegistry) (rs : List ComponentReference) : List ComponentReference :=
  firstsBy (fun r => Script.importKey (g.resolve r).statement) rs

theorem binding_resolve (g : ComponentRegistry) (r : ComponentReference) :
    (g.resolve r).binding = Script.bindingFor r.pascal := by
  unfold resolve
  split <;> rfl

theorem imports_kept (g : ComponentRegistry) (rs : List ComponentReference) :
    (Script.Module.empty.addComponents g rs).imports =
      (g.kept rs).map fun r => (g.resolve r).statement := by
  rw [Script.Module.imports_addComponents, firstsBy_map]
  rfl

theorem binding_eq_iff (g : ComponentRegistry) {html : Text} {r s : ComponentReference}
    (hr : r ∈ ComponentReference.scan html) (hs : s ∈ ComponentReference.scan html) :
    (g.resolve r).binding = (g.resolve s).binding ↔
      Naming.closeDigits r.kebab = Naming.closeDigits s.kebab := by
  rw [binding_resolve, binding_resolve]
  have hp : r.pascal = s.pascal ↔ Naming.closeDigits r.kebab = Naming.closeDigits s.kebab := by
    obtain ⟨m, -, -, rfl⟩ := ComponentReference.exists_of_mem_scan hr
    obtain ⟨n, -, -, rfl⟩ := ComponentReference.exists_of_mem_scan hs
    exact Naming.pascal_eq_iff m n
  rw [← hp]
  constructor
  · exact Script.bindingFor_inj (ComponentReference.pascal_of_mem_scan hr).1
      (ComponentReference.pascal_of_mem_scan hs).1
  · exact congrArg Script.bindingFor

/-- **No import binds a name of the module, and no two imports bind one name exactly when no two kept
references differ in hyphens before digits alone.** -/
theorem bindings_of_imports (html : Text) (g : ComponentRegistry) :
    let rs := g.kept (ComponentReference.scan html)
    (Script.Module.empty.addComponents g (ComponentReference.scan html)).imports =
        rs.map (fun r => (g.resolve r).statement) ∧
      (∀ r ∈ rs, (g.resolve r).binding ∉ Script.reservedBindings ++ Script.exportNames) ∧
      ((rs.map fun r => (g.resolve r).binding).Nodup ↔
        (rs.map fun r => Naming.closeDigits r.kebab).Nodup) := by
  intro rs
  have hmem : ∀ {r}, r ∈ rs → r ∈ ComponentReference.scan html := fun h => mem_of_mem_firstsBy h
  refine ⟨imports_kept g _, ?_, ?_⟩
  · intro r hr hm
    obtain ⟨hp, hu⟩ := ComponentReference.pascal_of_mem_scan (hmem hr)
    rw [binding_resolve] at hm
    rcases List.mem_append.1 hm with hm | hm
    · exact Script.bindingFor_not_reserved hp hm
    · exact Script.bindingFor_not_exported hu hm
  · unfold List.Nodup
    rw [List.pairwise_map, List.pairwise_map]
    refine List.Pairwise.iff_of_mem fun hr hs => ?_
    exact not_congr (binding_eq_iff g (hmem hr) (hmem hs))

/-- **A module can bind a name twice.** -/
theorem binding_twice :
    let g : ComponentRegistry := ⟨[⟨"x-2d".toList, "@ui/a".toList, .default⟩], "./components/".toList⟩
    let rs := ComponentReference.scan "<x-2d></x-2d><X2d></X2d>".toList
    (Script.Module.empty.addComponents g rs).imports =
        ["import X2d from \"@ui/a\";".toList, "import X2d from \"./components/X2d\";".toList] ∧
      (g.kept rs).map (fun r => (g.resolve r).binding) = ["X2d".toList, "X2d".toList] := by
  decide +kernel

end ComponentRegistry

end MarkdownModule

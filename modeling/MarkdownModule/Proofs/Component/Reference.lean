import MarkdownModule.Proofs.Component.Binding
import MarkdownModule.Proofs.Naming.Canonical

/-!
# References are names that code can use

Whatever a document holds, the references that are found in it have spellings of one form, and a
module can bind each of them.

* `Script.isIdentifier`             names that a script can bind
* `Script.isIdentifier_bindingFor`  the binding of a Pascal spelling is one
* `ComponentReference.scan_usable`  the references of a document
-/

namespace MarkdownModule

/-! ## identifiers -/

namespace Script

/-- the words that no binding of a module can have -/
def reservedWords : List String :=
  ["arguments", "await", "break", "case", "catch", "class", "const", "continue", "debugger",
   "default", "delete", "do", "else", "enum", "eval", "export", "extends", "false", "finally",
   "for", "function", "if", "implements", "import", "in", "instanceof", "interface", "let", "new",
   "null", "package", "private", "protected", "public", "return", "static", "super", "switch",
   "this", "throw", "true", "try", "typeof", "var", "void", "while", "with", "yield"]

def startsIdentifier (c : Char) : Bool := c.isAlpha || c = '_' || c = '$'

/-- whether a text is an identifier of ASCII characters that is no reserved word -/
def isIdentifier (s : Text) : Bool :=
  s.head?.any startsIdentifier && s.all (fun c => startsIdentifier c || c.isDigit) &&
    !reservedWords.contains (String.ofList s)

end Script

/-- a capital, and then letters and digits -/
structure Naming.IsPascal (s : Text) : Prop where
  head : s.head?.any Char.isUpper = true
  chars : ∀ c ∈ s, c.isAlphanum = true

namespace Script

theorem not_reserved_of_isUpper {s : Text} (h : s.head?.any Char.isUpper = true) :
    reservedWords.contains (String.ofList s) = false := by
  have hall : ∀ w ∈ reservedWords, w.toList.head?.any Char.isUpper = false := by decide
  refine Bool.eq_false_iff.2 fun hm => ?_
  have hlower := hall _ (List.contains_iff_mem.1 hm)
  rw [String.toList_ofList, h] at hlower
  exact nomatch hlower

theorem isIdentifier_of_isUpper {s : Text} (h : s.head?.any Char.isUpper = true)
    (hs : ∀ c ∈ s, c.isAlphanum = true ∨ c = '_') : isIdentifier s = true := by
  have hhead : s.head?.any startsIdentifier = true := by
    cases s with
    | nil => exact h
    | cons c r =>
      have hc : c.isUpper = true := h
      show startsIdentifier c = true
      simp [startsIdentifier, Char.isAlpha, hc]
  have hchars : s.all (fun c => startsIdentifier c || c.isDigit) = true := by
    refine List.all_eq_true.2 fun c hc => ?_
    rcases hs c hc with ha | rfl
    · rcases Bool.or_eq_true_iff.1 ha with ha | hd
      · simp [startsIdentifier, ha]
      · simp [hd]
    · rfl
  rw [isIdentifier, hhead, hchars, not_reserved_of_isUpper h]
  rfl

/-- **The binding of a Pascal spelling is an identifier.** -/
theorem isIdentifier_bindingFor {p : Text} (h : Naming.IsPascal p) :
    isIdentifier (bindingFor p) = true := by
  unfold bindingFor
  split
  · refine isIdentifier_of_isUpper ?_ fun c hc => ?_
    · have hhead := h.head
      cases p with
      | nil => exact hhead
      | cons c r => exact hhead
    · rcases List.mem_append.1 hc with hc | hc
      · exact .inl (h.chars c hc)
      · exact .inr (List.mem_singleton.1 hc)
  · exact isIdentifier_of_isUpper h.head fun c hc => .inl (h.chars c hc)

end Script

/-! ## references -/

namespace ComponentReference

theorem isLower_head_kebab {name : Text} (h : name.head?.any Char.isAlpha = true) :
    Naming.IsKebab (Naming.kebab name) ∧ (Naming.kebab name).head?.any Char.isLower = true := by
  cases name with
  | nil => exact nomatch h
  | cons c r =>
    obtain ⟨w, ws, hw⟩ := Naming.exists_words_cons (Bool.or_eq_true_iff.2 (.inl h)) r
    refine ⟨Naming.isKebab_kebab (by rw [hw]; exact List.cons_ne_nil _ _), ?_⟩
    have hhead : (Naming.kebab (c :: r)).head? = some c.toLower := by
      rw [Naming.kebab, hw]
      cases ws with
      | nil => rfl
      | cons v vs => rfl
    rw [hhead]
    show c.toLower.isLower = true
    rw [Char.isLower_toLower_eq_isAlpha]
    exact h

theorem nodup_scan (html : Text) : ((scan html).map kebab).Nodup := by
  rw [scan, firsts_eq_firstsBy]
  exact nodup_firstsBy kebab _

/-- a reference is that of its own kebab spelling -/
theorem ofTag_kebab {r : ComponentReference} {html : Text} (h : r ∈ scan html) :
    ofTag r.kebab = r := by
  obtain ⟨n, -, -, rfl⟩ := exists_of_mem_scan h
  show ComponentReference.mk (Naming.kebab (Naming.kebab n)) (Naming.pascal (Naming.kebab n)) = _
  rw [Naming.kebab_kebab, Naming.pascal_kebab]
  rfl

theorem isPascal_of_mem_scan {r : ComponentReference} {html : Text} (h : r ∈ scan html) :
    Naming.IsPascal r.pascal := by
  refine ⟨(pascal_of_mem_scan h).2, ?_⟩
  obtain ⟨n, -, -, rfl⟩ := exists_of_mem_scan h
  exact fun c hc => Naming.isAlphanum_of_mem_pascal hc

theorem isKebab_of_mem_scan {r : ComponentReference} {html : Text} (h : r ∈ scan html) :
    Naming.IsKebab r.kebab ∧ r.kebab.head?.any Char.isLower = true := by
  obtain ⟨n, hn, -, rfl⟩ := exists_of_mem_scan h
  exact isLower_head_kebab (Html.isAlpha_head_of_mem_startTagNames hn)

/-- **The references of a document have different kebab spellings, both spellings of each are of one
form and give the reference back, and different Pascal spellings have different bindings**, which are
identifiers that the module does not need for itself. -/
theorem scan_usable (html : Text) :
    ((scan html).map kebab).Nodup ∧
      (∀ r ∈ scan html,
        (Naming.IsKebab r.kebab ∧ r.kebab.head?.any Char.isLower = true) ∧
          (r.pascal = Naming.pascal r.kebab ∧ Naming.IsPascal r.pascal) ∧
          (Script.isIdentifier (Script.bindingFor r.pascal) = true ∧
            Script.bindingFor r.pascal ∉ Script.reservedBindings ++ Script.exportNames) ∧
          ofTag r.kebab = r) ∧
      ∀ r ∈ scan html, ∀ s ∈ scan html, r.pascal ≠ s.pascal →
        Script.bindingFor r.pascal ≠ Script.bindingFor s.pascal := by
  refine ⟨nodup_scan html, fun r hr => ?_, fun r hr s hs hne e => ?_⟩
  · obtain ⟨hunderscore, hupper⟩ := pascal_of_mem_scan hr
    have hpascal := isPascal_of_mem_scan hr
    refine ⟨isKebab_of_mem_scan hr, ⟨?_, hpascal⟩, ⟨Script.isIdentifier_bindingFor hpascal, ?_⟩,
      ofTag_kebab hr⟩
    · exact congrArg pascal (ofTag_kebab hr).symm
    · intro hm
      rcases List.mem_append.1 hm with hm | hm
      · exact Script.bindingFor_not_reserved hunderscore hm
      · exact Script.bindingFor_not_exported hupper hm
  · exact hne (Script.bindingFor_inj (pascal_of_mem_scan hr).1 (pascal_of_mem_scan hs).1 e)

example : (scan "<React><x--Y2d_ a='<b-c>'><FOO-bar/></x--Y2d_>".toList).map
    (fun r => (String.ofList r.kebab, String.ofList (Script.bindingFor r.pascal))) =
    [("react", "React_"), ("x-y2d", "XY2d"), ("foo-bar", "FooBar")] := by decide +kernel

end ComponentReference

end MarkdownModule

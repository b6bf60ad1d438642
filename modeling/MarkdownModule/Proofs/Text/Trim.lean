import Mathlib.Data.List.TakeWhile
import MarkdownModule.Proofs.Text.Ends

/-!
# A text between blanks

* `Text.IsTight`        no blank stands at an end of the text
* `Text.trim_eq_iff`    what is left of a text, and what is dropped at its two ends
* `Text.trim_between`   blanks around a text change nothing
* `Text.trim_lower`     what is left does not depend on the case of letters
-/

namespace MarkdownModule

/-! ## blanks among characters -/

/-- the visible characters of ASCII are no blanks -/
theorem isBlank_of_visible {c : Char} (h : 33 ≤ c.toNat ∧ c.toNat ≤ 126) : isBlank c = false := by
  cases hb : isBlank c with
  | false => rfl
  | true =>
    exfalso
    have hcontrol : ¬ ('\t' ≤ c ∧ c ≤ '\r') := by
      rintro ⟨-, hle⟩
      have h13 : c.toNat ≤ 13 := hle
      omega
    have hwide : ¬ ('\u2000' ≤ c ∧ c ≤ '\u200a') := by
      rintro ⟨hle, -⟩
      have h8192 : 8192 ≤ c.toNat := hle
      omega
    simp only [isBlank, Bool.or_eq_true, Bool.and_eq_true, decide_eq_true_eq, hcontrol, hwide,
      false_or, or_false] at hb
    rcases hb with (((((((rfl | rfl) | rfl) | rfl) | rfl) | rfl) | rfl) | rfl) | rfl
    all_goals exact absurd h (by decide)

theorem isBlank_toLower (c : Char) : isBlank c.toLower = isBlank c := by
  unfold Char.toLower
  split
  · next h =>
    have h1 : 65 ≤ c.val.toNat := h.1
    have h2 : c.val.toNat ≤ 90 := h.2
    have h32 : (32 : UInt32).toNat = 32 := rfl
    have hupper : isBlank c = false := isBlank_of_visible (by
      show 33 ≤ c.val.toNat ∧ c.val.toNat ≤ 126
      omega)
    rw [hupper]
    refine isBlank_of_visible ?_
    show 33 ≤ (c.val + 32).toNat ∧ (c.val + 32).toNat ≤ 126
    rw [UInt32.toNat_add]
    omega
  · rfl

namespace Text

/-! ## ends -/

def IsSpacing (s : Text) : Prop := ∀ c ∈ s, isBlank c = true

/-- no blank stands at an end of the text -/
structure IsTight (s : Text) : Prop where
  head : ∀ c ∈ s.head?, isBlank c = false
  last : ∀ c ∈ s.getLast?, isBlank c = false

theorem isSpacing_nil : IsSpacing [] := fun _ h => absurd h List.not_mem_nil

theorem IsSpacing.append {a b : Text} (ha : IsSpacing a) (hb : IsSpacing b) : IsSpacing (a ++ b) :=
  fun c hc => (List.mem_append.1 hc).elim (ha c) (hb c)

theorem isTight_trim (s : Text) : IsTight (trim s) where
  head := by
    intro c hc
    obtain ⟨t, ht, -⟩ := exists_dropEndWhile_append isBlank (trimStart s)
    have hhead : (s.dropWhile isBlank).head? = some c := by
      have hc : (dropEndWhile isBlank (trimStart s)).head? = some c := hc
      show (trimStart s).head? = some c
      rw [ht, List.head?_append, hc]
      rfl
    have h := List.head?_dropWhile_not isBlank s
    rwa [hhead] at h
  last := getLast?_dropEndWhile isBlank (trimStart s)

/-- **What is left of a text has no blank at its ends, and only blanks are dropped.** -/
theorem trim_eq_iff {s w : Text} :
    trim s = w ↔ IsTight w ∧ ∃ a b, s = a ++ w ++ b ∧ IsSpacing a ∧ IsSpacing b := by
  constructor
  · rintro rfl
    obtain ⟨b, hb, hblank⟩ := exists_dropEndWhile_append isBlank (trimStart s)
    refine ⟨isTight_trim s, s.takeWhile isBlank, b, ?_, fun c hc => List.mem_takeWhile_imp hc,
      hblank⟩
    rw [List.append_assoc, trim, trimEnd, ← hb, trimStart, List.takeWhile_append_dropWhile]
  · rintro ⟨hw, a, b, rfl, ha, hb⟩
    cases w with
    | nil =>
      have hall : trimStart (a ++ [] ++ b) = [] := by
        rw [List.append_nil]
        exact List.dropWhile_eq_nil_iff.2 (ha.append hb)
      rw [trim, hall]
      rfl
    | cons c w =>
      have hstart : trimStart (a ++ (c :: w) ++ b) = c :: w ++ b := by
        rw [List.append_assoc]
        exact (span_of_forall (t := c :: w ++ b) ha hw.head).2
      rw [trim, hstart, trimEnd, dropEndWhile_append _ hb, dropEndWhile_eq_self hw.last]

theorem trim_eq_self_iff {s : Text} : trim s = s ↔ IsTight s := by
  rw [trim_eq_iff]
  exact ⟨And.left, fun h => ⟨h, [], [], by simp, isSpacing_nil, isSpacing_nil⟩⟩

/-- blanks around a text change nothing of what is left of it -/
theorem trim_between {a b : Text} (ha : IsSpacing a) (hb : IsSpacing b) (s : Text) :
    trim (a ++ s ++ b) = trim s := by
  obtain ⟨hw, a', b', hs, ha', hb'⟩ := trim_eq_iff.1 (rfl : trim s = trim s)
  refine trim_eq_iff.2 ⟨hw, a ++ a', b' ++ b, ?_, ha.append ha', hb'.append hb⟩
  calc a ++ s ++ b = a ++ (a' ++ trim s ++ b') ++ b := by rw [← hs]
    _ = a ++ a' ++ trim s ++ (b' ++ b) := by simp only [List.append_assoc]

/-! ## letter case -/

theorem isSpacing_lower {s : Text} (h : IsSpacing s) : IsSpacing (lower s) := by
  intro c hc
  obtain ⟨d, hd, rfl⟩ := List.mem_map.1 hc
  rw [isBlank_toLower]
  exact h d hd

theorem isTight_lower_iff {s : Text} : IsTight (lower s) ↔ IsTight s := by
  have hmap : ∀ o : Option Char, (∀ c ∈ o.map Char.toLower, isBlank c = false) ↔
      ∀ c ∈ o, isBlank c = false := by
    intro o
    cases o with
    | none => exact iff_of_true (fun c hc => nomatch hc) fun c hc => nomatch hc
    | some d =>
      simp only [Option.map_some, Option.mem_some_iff, forall_eq', isBlank_toLower]
  constructor
  · rintro ⟨hhead, hlast⟩
    rw [lower, List.head?_map] at hhead
    rw [lower, List.getLast?_map] at hlast
    exact ⟨(hmap _).1 hhead, (hmap _).1 hlast⟩
  · rintro ⟨hhead, hlast⟩
    refine ⟨?_, ?_⟩
    · rw [lower, List.head?_map]
      exact (hmap _).2 hhead
    · rw [lower, List.getLast?_map]
      exact (hmap _).2 hlast

theorem lower_append (a b : Text) : lower (a ++ b) = lower a ++ lower b := List.map_append

/-- **What is left of a text does not depend on the case of its letters.** -/
theorem trim_lower (s : Text) : trim (lower s) = lower (trim s) := by
  obtain ⟨hw, a, b, hs, ha, hb⟩ := trim_eq_iff.1 (rfl : trim s = trim s)
  refine trim_eq_iff.2 ⟨isTight_lower_iff.2 hw, lower a, lower b, ?_, isSpacing_lower ha,
    isSpacing_lower hb⟩
  rw [← lower_append, ← lower_append, ← hs]

end Text

end MarkdownModule

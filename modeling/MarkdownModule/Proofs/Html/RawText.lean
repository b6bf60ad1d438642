import Mathlib.Tactic.ByContra
import MarkdownModule.Html.RawText
import MarkdownModule.Proofs.Text.Cut

/-!
# Where raw content ends

* `Html.length_le_of_closesRawText`  an end tag reaches over no further `<`
* `Html.cutRawText_eq`               content that holds no end of itself ends at its end tag
-/

namespace MarkdownModule.Html

theorem toLower_ne_lt {c : Char} (h : c ≠ '<') : c.toLower ≠ '<' := by
  unfold Char.toLower
  split
  · next hc =>
    intro e
    have hv := congrArg (fun d : Char => d.val.toNat) e
    have h1 : 65 ≤ c.val.toNat := hc.1
    have h2 : c.val.toNat ≤ 90 := hc.2
    have h3 : (c.val + 32).toNat = 60 := hv
    rw [UInt32.toNat_add] at h3
    have h4 : (32 : UInt32).toNat = 32 := rfl
    omega
  · exact h

theorem lt_not_mem_lower {s : Text} (h : '<' ∉ s) : '<' ∉ Text.lower s := by
  intro hm
  obtain ⟨c, hc, e⟩ := List.mem_map.1 hm
  exact toLower_ne_lt (fun hlt => h (hlt ▸ hc)) e

/-- an end tag of raw content that begins before a `<` ends before it -/
theorem length_le_of_closesRawText {name t q : Text} (hn : '<' ∉ name) (ht : t ≠ [])
    (h : closesRawText name (t ++ '<' :: q) = true) : name.length + 2 ≤ t.length := by
  cases t with
  | nil => exact absurd rfl ht
  | cons a t =>
    by_contra hlt
    rw [List.length_cons] at hlt
    have e := beq_iff_eq.1 h
    have hmem : '<' ∈ (t ++ '<' :: q).take (name.length + 1) := by
      obtain ⟨k, hk⟩ : ∃ k, name.length + 1 - t.length = k + 1 :=
        ⟨name.length - t.length, by omega⟩
      rw [List.take_append, hk, List.take_succ_cons]
      simp
    have hmem' : '<' ∈ '/' :: name := by
      simp only [Text.lower, List.cons_append, List.take_succ_cons, List.map_cons,
        List.cons.injEq] at e
      rw [← e.2]
      exact List.mem_map.2 ⟨'<', hmem, rfl⟩
    rcases List.mem_cons.1 hmem' with h' | h'
    · exact absurd h' (by decide)
    · exact hn h'

theorem closesRawText_self (name s : Text) :
    closesRawText (Text.lower name) ('<' :: '/' :: name ++ s) = true := by
  have hl : (Text.lower name).length + 2 = ('<' :: '/' :: name).length := by
    rw [Text.length_lower]
    rfl
  rw [closesRawText, hl, List.take_left]
  exact beq_iff_eq.2 rfl

/-- content that holds no end of itself ends at its end tag -/
theorem cutRawText_eq {name content : Text} (hn : '<' ∉ name)
    (h : ¬ ('<' :: '/' :: Text.lower name) <:+: Text.lower content) (s : Text) :
    cutRawText (Text.lower name) (content ++ ('<' :: '/' :: name ++ s)) =
      (content, '<' :: '/' :: name ++ s) := by
  refine Text.cutAt_eq (fun t ht hsuf => ?_) (.inr (closesRawText_self name s))
  rw [← Bool.not_eq_true]
  intro hc
  have hl := length_le_of_closesRawText (lt_not_mem_lower hn) ht hc
  have e := beq_iff_eq.1 hc
  rw [List.take_append_of_le_length hl] at e
  refine h ?_
  rw [← e]
  exact ((List.take_prefix _ t).isInfix.trans hsuf.isInfix).map Char.toLower

end MarkdownModule.Html

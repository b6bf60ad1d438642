import MarkdownModule.Text.Basic

/-!
# Texts cut at a character

* `Text.not_mem_of_mem_splitOn`   no part holds the character
* `Text.splitOn_append`           a text is cut where the character stands
* `Text.splitOn_of_not_mem`       a text without the character is one part
* `Text.infix_of_mem_splitOn`     each part stands in the text
-/

namespace MarkdownModule.Text

theorem splitOn_ne_nil (c : Char) (s : Text) : splitOn c s ≠ [] := by
  cases s with
  | nil => exact List.cons_ne_nil _ _
  | cons d r =>
    rw [splitOn]
    split
    · exact List.cons_ne_nil _ _
    · split <;> exact List.cons_ne_nil _ _

theorem not_mem_of_mem_splitOn {c : Char} {s t : Text} (h : t ∈ splitOn c s) : c ∉ t := by
  induction s generalizing t with
  | nil =>
    cases List.mem_singleton.1 h
    exact List.not_mem_nil
  | cons d r ih =>
    rw [splitOn] at h
    split at h
    · rcases List.mem_cons.1 h with rfl | h
      · exact List.not_mem_nil
      · exact ih h
    · next hd =>
      split at h
      · cases List.mem_singleton.1 h
        rw [List.mem_singleton]
        exact Ne.symm hd
      · next w ws hws =>
        rw [hws] at ih
        rcases List.mem_cons.1 h with rfl | h
        · rw [List.mem_cons]
          rintro (hc | hc)
          · exact hd hc.symm
          · exact ih List.mem_cons_self hc
        · exact ih (List.mem_cons_of_mem w h)

/-- **A text is cut where the character stands.** -/
theorem splitOn_append (c : Char) (a b : Text) :
    splitOn c (a ++ c :: b) = splitOn c a ++ splitOn c b := by
  induction a with
  | nil =>
    show splitOn c (c :: b) = [] :: splitOn c b
    rw [splitOn, if_pos rfl]
  | cons d r ih =>
    rw [List.cons_append, splitOn, splitOn, ih]
    split
    · rfl
    · obtain ⟨w, ws, hws⟩ := List.exists_cons_of_ne_nil (splitOn_ne_nil c r)
      rw [hws]
      rfl

theorem splitOn_of_not_mem {c : Char} {s : Text} (h : c ∉ s) : splitOn c s = [s] := by
  induction s with
  | nil => rfl
  | cons d r ih =>
    obtain ⟨hd, hr⟩ := List.ne_and_not_mem_of_not_mem_cons h
    rw [splitOn, if_neg (Ne.symm hd), ih hr]

/-- each part of a text stands in it -/
theorem infix_of_mem_splitOn {c : Char} {s t : Text} (h : t ∈ splitOn c s) : t <:+: s := by
  generalize hn : s.length = n
  induction n using Nat.strongRecOn generalizing s with
  | ind n ih =>
    by_cases hc : c ∈ s
    · obtain ⟨u, v, rfl, hu⟩ := List.eq_append_cons_of_mem hc
      rw [splitOn_append, splitOn_of_not_mem hu] at h
      rcases List.mem_cons.1 h with rfl | h
      · exact List.infix_append' [] t (c :: v)
      · rw [List.length_append, List.length_cons] at hn
        have hv := ih v.length (by omega) h rfl
        exact hv.trans ((List.suffix_cons c v).trans (List.suffix_append u _)).isInfix
    · rw [splitOn_of_not_mem hc] at h
      obtain rfl := List.mem_singleton.1 h
      exact List.infix_rfl

end MarkdownModule.Text

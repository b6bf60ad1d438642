import MarkdownModule.Html.RawText
import MarkdownModule.Text.Basic

/-!
# Cuts that a longer text does not move

`Text.cutAt` cuts a text at the first place where a test holds.  A test that looks at the first `k`
characters alone (`Window p k`) cuts a text and a longer one at the same place, as long as the `k`
characters at the cut are all in the shorter one.

* `Text.cutAt_append_right`  what stands behind a text does not move a cut inside of it
* `Text.cutAt_of_append`     a cut that lies inside of the first part is a cut of that part
* `Text.cutAt_eq`            the cut of a text whose first part holds no place for it
* `Text.not_holds_of_cutAt`  the first part holds no place for the cut
-/

namespace MarkdownModule.Text

/-- the test looks at the first `k` characters alone, and holds of no shorter text -/
structure Window (p : Text → Bool) (k : Nat) : Prop where
  pos : 0 < k
  append : ∀ s t, k ≤ s.length → p (s ++ t) = p s
  length_le : ∀ s, p s = true → k ≤ s.length

theorem window_isPrefixOf (mark : Text) (hm : mark ≠ []) :
    Window (mark.isPrefixOf ·) mark.length where
  pos := List.length_pos_iff.2 hm
  append s t h := by
    rw [Bool.eq_iff_iff, List.isPrefixOf_iff_prefix, List.isPrefixOf_iff_prefix]
    constructor
    · intro hp
      exact List.prefix_of_prefix_length_le hp (List.prefix_append s t) h
    · intro hp
      exact hp.trans (List.prefix_append s t)
  length_le s h := (List.isPrefixOf_iff_prefix.1 h).length_le

theorem length_lower (s : Text) : (lower s).length = s.length := by simp [lower]

theorem window_closesRawText (name : Text) :
    Window (Html.closesRawText name) (name.length + 2) where
  pos := Nat.succ_pos _
  append s t h := by
    unfold Html.closesRawText
    rw [List.take_append_of_le_length h]
  length_le s h := by
    have e := congrArg List.length (beq_iff_eq.1 h)
    rw [length_lower, List.length_take, List.length_cons, List.length_cons] at e
    omega

/-! ## the place of a cut -/

section
variable {p : Text → Bool} {k : Nat}

theorem holds_of_cutAt (p : Text → Bool) (s : Text) (h : (cutAt p s).2 ≠ []) :
    p (cutAt p s).2 = true := by
  induction s with
  | nil => exact absurd rfl h
  | cons c r ih =>
    unfold cutAt at h ⊢
    by_cases hc : p (c :: r) = true
    · rw [if_pos hc]; exact hc
    · rw [if_neg hc] at h ⊢; exact ih h

theorem cutAt_append_right (w : Window p k) (a s : Text) (h : (cutAt p a).2 ≠ []) :
    cutAt p (a ++ s) = ((cutAt p a).1, (cutAt p a).2 ++ s) := by
  induction a with
  | nil => exact absurd rfl h
  | cons c r ih =>
    rw [List.cons_append]
    unfold cutAt at h ⊢
    by_cases hc : p (c :: r) = true
    · have hs : p (c :: (r ++ s)) = true := by
        rw [← List.cons_append, w.append _ _ (w.length_le _ hc)]; exact hc
      rw [if_pos hc, if_pos hs]; rfl
    · rw [if_neg hc] at h
      have hk : k ≤ (c :: r).length := by
        have h1 := w.length_le _ (holds_of_cutAt p r h)
        have h2 := length_cutAt_snd_le p r
        rw [List.length_cons]; omega
      have hs : ¬ p (c :: (r ++ s)) = true := by
        rw [← List.cons_append, w.append _ _ hk]; exact hc
      rw [if_neg hc, if_neg hs, ih h]

theorem cutAt_of_append (w : Window p k) (a s : Text)
    (h : s.length + k ≤ (cutAt p (a ++ s)).2.length) :
    (cutAt p (a ++ s)).2 = (cutAt p a).2 ++ s := by
  have hk := w.pos
  induction a with
  | nil =>
    have := length_cutAt_snd_le p s
    rw [List.nil_append] at h
    omega
  | cons c r ih =>
    rw [List.cons_append] at h ⊢
    unfold cutAt at h ⊢
    by_cases hs : p (c :: (r ++ s)) = true
    · rw [if_pos hs] at h ⊢
      have hl : k ≤ (c :: r).length := by
        simp only [List.length_cons, List.length_append] at h ⊢; omega
      have hc : p (c :: r) = true := by rw [← w.append _ s hl]; exact hs
      rw [if_pos hc]; rfl
    · rw [if_neg hs] at h ⊢
      have hl : k ≤ (c :: r).length := by
        have := length_cutAt_snd_le p (r ++ s)
        simp only [List.length_cons, List.length_append] at this h ⊢; omega
      have hc : ¬ p (c :: r) = true := by rw [← w.append _ s hl]; exact hs
      rw [if_neg hc]; exact ih h

/-- the cut of a text whose part `a` holds no place for it -/
theorem cutAt_eq {a s : Text} (ha : ∀ t, t ≠ [] → t <:+ a → p (t ++ s) = false)
    (hs : s = [] ∨ p s = true) : cutAt p (a ++ s) = (a, s) := by
  induction a with
  | nil =>
    rcases hs with rfl | hs
    · rfl
    · cases s with
      | nil => rfl
      | cons c r => rw [List.nil_append]; unfold cutAt; rw [if_pos hs]
  | cons c r ih =>
    have hc : p (c :: (r ++ s)) = false := ha (c :: r) (List.cons_ne_nil c r) List.suffix_rfl
    rw [List.cons_append]
    unfold cutAt
    rw [if_neg (by rw [hc]; exact Bool.false_ne_true),
      ih fun t ht hsuf => ha t ht (hsuf.trans (List.suffix_cons c r))]

/-- a text is cut at a character that does not stand before the cut -/
theorem cutAt_head {c : Char} {a s : Text} (ha : c ∉ a) (hs : s = [] ∨ s.head? = some c) :
    cutAt (·.head? == some c) (a ++ s) = (a, s) := by
  refine cutAt_eq (fun t ht hsuf => ?_) (hs.imp_right beq_iff_eq.2)
  obtain ⟨d, t, rfl⟩ := List.exists_cons_of_ne_nil ht
  have hd : d ≠ c := by
    rintro rfl
    exact ha (hsuf.subset List.mem_cons_self)
  exact beq_eq_false_iff_ne.2 fun e => hd (Option.some.inj e)

/-- in front of the cut of a text there is no place for it -/
theorem not_holds_of_cutAt {s a b : Text} (h : cutAt p s = (a, b)) :
    ∀ t, t ≠ [] → t <:+ a → p (t ++ b) = false := by
  induction s generalizing a with
  | nil =>
    obtain ⟨rfl, -⟩ := Prod.mk.inj h
    exact fun t ht hsuf => absurd (List.suffix_nil.1 hsuf) ht
  | cons c r ih =>
    unfold cutAt at h
    by_cases hc : p (c :: r) = true
    · rw [if_pos hc] at h
      obtain ⟨rfl, -⟩ := Prod.mk.inj h
      exact fun t ht hsuf => absurd (List.suffix_nil.1 hsuf) ht
    · rw [if_neg hc] at h
      obtain ⟨rfl, hb⟩ := Prod.mk.inj h
      intro t ht hsuf
      rcases List.suffix_cons_iff.1 hsuf with rfl | hsuf
      · rw [← hb, List.cons_append, cutAt_append]
        exact Bool.eq_false_iff.2 hc
      · exact ih (Prod.ext rfl hb) t ht hsuf

theorem cutAt_snd_suffix (p : Text → Bool) (s : Text) : (cutAt p s).2 <:+ s :=
  ⟨(cutAt p s).1, cutAt_append p s⟩

end

end MarkdownModule.Text

import MarkdownModule.Text.Blank

/-!
# The ends of a text

* `Text.dropEndWhile_append`   a tail that is dropped as a whole
* `Text.dropEndWhile_eq_self`  a text whose last character stays
* `Text.dropEndWhile_eq_iff`   what is left of a text, and what is dropped
* `Text.span_of_forall`        a run of characters of one class, and the rest
-/

namespace MarkdownModule.Text

section
variable {p : Char → Bool}

theorem dropEndWhile_of_all {s : Text} (h : ∀ c ∈ s, p c = true) : dropEndWhile p s = [] := by
  induction s with
  | nil => rfl
  | cons c r ih =>
    obtain ⟨hc, hr⟩ := List.forall_mem_cons.1 h
    rw [dropEndWhile, ih hr, hc]
    rfl

theorem dropEndWhile_append (a : Text) {b : Text} (h : ∀ c ∈ b, p c = true) :
    dropEndWhile p (a ++ b) = dropEndWhile p a := by
  induction a with
  | nil => exact dropEndWhile_of_all h
  | cons c r ih => rw [List.cons_append, dropEndWhile, dropEndWhile, ih]

theorem dropEndWhile_eq_self {s : Text} (h : ∀ c ∈ s.getLast?, p c = false) :
    dropEndWhile p s = s := by
  induction s with
  | nil => rfl
  | cons c r ih =>
    cases r with
    | nil =>
      have hc : p c = false := h c rfl
      rw [dropEndWhile, dropEndWhile, hc]
      rfl
    | cons d t =>
      rw [dropEndWhile, ih h]

theorem dropEndWhile_append_right {a : Text} (h : ∀ c ∈ a.getLast?, p c = false) (b : Text) :
    dropEndWhile p (a ++ b) = a ++ dropEndWhile p b := by
  induction a with
  | nil => rfl
  | cons c r ih =>
    have hr : ∀ d ∈ r.getLast?, p d = false := by
      cases r with
      | nil => exact fun d hd => by cases hd
      | cons d t => exact h
    rw [List.cons_append, dropEndWhile, ih hr]
    cases hd : r ++ dropEndWhile p b with
    | nil =>
      obtain ⟨rfl, hb⟩ := List.append_eq_nil_iff.1 hd
      have hc : p c = false := h c rfl
      dsimp only
      rw [hc, hb]
      rfl
    | cons d t =>
      rw [List.cons_append, hd]

theorem exists_dropEndWhile_append (p : Char → Bool) (s : Text) :
    ∃ t, s = dropEndWhile p s ++ t ∧ ∀ c ∈ t, p c = true := by
  induction s with
  | nil => exact ⟨[], rfl, fun _ h => absurd h List.not_mem_nil⟩
  | cons c r ih =>
    obtain ⟨t, hr, ht⟩ := ih
    rw [dropEndWhile]
    cases hd : dropEndWhile p r with
    | nil =>
      rw [hd, List.nil_append] at hr
      by_cases hc : p c = true
      · exact ⟨c :: r, by rw [if_pos hc]; rfl, List.forall_mem_cons.2 ⟨hc, hr ▸ ht⟩⟩
      · exact ⟨t, by rw [if_neg hc, hr]; rfl, ht⟩
    | cons d u =>
      rw [hd] at hr
      exact ⟨t, congrArg (c :: ·) hr, ht⟩

theorem prefix_dropEndWhile (p : Char → Bool) (s : Text) : dropEndWhile p s <+: s := by
  obtain ⟨t, ht, -⟩ := exists_dropEndWhile_append p s
  exact ⟨t, ht.symm⟩

theorem getLast?_dropEndWhile (p : Char → Bool) (s : Text) :
    ∀ c ∈ (dropEndWhile p s).getLast?, p c = false := by
  induction s with
  | nil => exact fun _ h => by cases h
  | cons c r ih =>
    rw [dropEndWhile]
    cases hd : dropEndWhile p r with
    | nil =>
      by_cases hc : p c = true
      · rw [if_pos hc]
        exact fun _ h => by cases h
      · rw [if_neg hc]
        intro d h
        rw [← Option.some.inj h]
        exact Bool.eq_false_iff.2 hc
    | cons d u =>
      rw [hd] at ih
      exact ih

/-- **What is left ends in a character that stays, and what is dropped goes as a whole.** -/
theorem dropEndWhile_eq_iff {s a : Text} : dropEndWhile p s = a ↔
    (∀ c ∈ a.getLast?, p c = false) ∧ ∃ t, s = a ++ t ∧ ∀ c ∈ t, p c = true := by
  constructor
  · rintro rfl
    exact ⟨getLast?_dropEndWhile p s, exists_dropEndWhile_append p s⟩
  · rintro ⟨ha, t, rfl, ht⟩
    rw [dropEndWhile_append a ht, dropEndWhile_eq_self ha]

end

theorem getLast?_append_right (a : Text) {b : Text} (h : b ≠ []) :
    (a ++ b).getLast? = b.getLast? := by
  rw [List.getLast?_append, List.getLast?_eq_some_getLast h]
  rfl

/-- the last place of a character tells two texts apart -/
theorem append_cons_inj_of_not_mem {c : Char} {a b s t : Text} (hs : c ∉ s) (ht : c ∉ t)
    (h : a ++ c :: s = b ++ c :: t) : a = b ∧ s = t := by
  have key : ∀ {x s t : Text}, c ∉ s → c :: s = x ++ c :: t → x = [] := by
    intro x s t hs h
    cases x with
    | nil => rfl
    | cons d x => exact absurd ((List.cons.inj h).2 ▸ List.mem_append_right x List.mem_cons_self) hs
  rcases List.append_eq_append_iff.1 h with ⟨x, e, hx⟩ | ⟨x, e, hx⟩
  · obtain rfl := key hs hx
    exact ⟨by rw [e, List.append_nil], (List.cons.inj hx).2⟩
  · obtain rfl := key ht hx
    exact ⟨by rw [e, List.append_nil], (List.cons.inj hx).2.symm⟩

/-! ## runs -/

/-- a run of characters of one class that stops before the rest -/
theorem span_of_forall {p : Char → Bool} {s t : Text} (hs : ∀ c ∈ s, p c = true)
    (ht : ∀ c ∈ t.head?, p c = false) :
    (s ++ t).takeWhile p = s ∧ (s ++ t).dropWhile p = t := by
  induction s with
  | nil =>
    cases t with
    | nil => exact ⟨rfl, rfl⟩
    | cons c t =>
      have hc : ¬ p c = true := by rw [ht c rfl]; exact Bool.false_ne_true
      exact ⟨List.takeWhile_cons_of_neg hc, List.dropWhile_cons_of_neg hc⟩
  | cons c s ih =>
    obtain ⟨hc, hs⟩ := List.forall_mem_cons.1 hs
    rw [List.cons_append, List.takeWhile_cons_of_pos hc, List.dropWhile_cons_of_pos hc, (ih hs).1,
      (ih hs).2]
    exact ⟨rfl, rfl⟩

theorem span_cons_of_forall {p : Char → Bool} {s : Text} (hs : ∀ c ∈ s, p c = true) {c : Char}
    (hc : p c = false) (t : Text) :
    (s ++ c :: t).takeWhile p = s ∧ (s ++ c :: t).dropWhile p = c :: t :=
  span_of_forall hs fun d hd => by rwa [← Option.mem_some_iff.1 hd]

/-- the text up to a mark -/
theorem span_of_not_mem {mark : Char} {s : Text} (h : mark ∉ s) (t : Text) :
    (s ++ mark :: t).takeWhile (· ≠ mark) = s ∧
      (s ++ mark :: t).dropWhile (· ≠ mark) = mark :: t := by
  refine span_cons_of_forall (fun c hc => decide_eq_true ?_) (decide_eq_false fun e => e rfl) t
  rintro rfl
  exact h hc

/-! ## blanks -/

theorem trimEnd_append (a : Text) {b : Text} (h : ∀ c ∈ b, isSpace c = true) :
    trimEnd (a ++ b) = trimEnd a :=
  dropEndWhile_append a fun c hc => isBlank_of_isSpace (h c hc)

end MarkdownModule.Text

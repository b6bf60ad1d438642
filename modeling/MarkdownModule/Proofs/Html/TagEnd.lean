import MarkdownModule.Html.ElementName
import MarkdownModule.Html.TagEnd
import MarkdownModule.Proofs.Text.Trim

/-!
# Where a tag ends does not depend on what follows it

* `Html.closeTag_append`     a tag that ends has the same end in a longer text
* `Html.closeTag_of_append`  a tag that ends in the first part of a text ends in that part alone
* `Html.closeTag_eq_map`     the name of a tag can be read before its end is looked for
* `Html.Quiet`               the texts over which the search for the end of a tag passes
-/

namespace MarkdownModule.Html

/-! ## characters -/

theorem isNameChar_ne {c d : Char} (hc : isNameChar c = true) (hd : isNameChar d = false) :
    c ≠ d := by
  rintro rfl
  rw [hc] at hd
  exact Bool.noConfusion hd

theorem isQuote_of_isNameChar {c : Char} (hc : isNameChar c = true) : isQuote c = false := by
  have h1 : c ≠ '"' := isNameChar_ne hc (by decide)
  have h2 : c ≠ '\'' := isNameChar_ne hc (by decide)
  simp [isQuote, h1, h2]

theorem isBlank_of_isNameChar {c : Char} (h : isNameChar c = true) : isBlank c = false := by
  have hupper : c.isUpper = true → 65 ≤ c.toNat ∧ c.toNat ≤ 90 := fun h => of_decide_eq_true h
  have hlower : c.isLower = true → 97 ≤ c.toNat ∧ c.toNat ≤ 122 := fun h =>
    ⟨of_decide_eq_true (Bool.and_eq_true_iff.1 h).1,
      of_decide_eq_true (Bool.and_eq_true_iff.1 h).2⟩
  have hdigit : c.isDigit = true → 48 ≤ c.toNat ∧ c.toNat ≤ 57 := fun h =>
    ⟨of_decide_eq_true (Bool.and_eq_true_iff.1 h).1,
      of_decide_eq_true (Bool.and_eq_true_iff.1 h).2⟩
  refine isBlank_of_visible ?_
  simp only [isNameChar, Bool.or_eq_true, decide_eq_true_eq] at h
  rcases h with (((h | rfl) | rfl) | rfl) | rfl
  · rcases Bool.or_eq_true_iff.1 h with h | h
    · rcases Bool.or_eq_true_iff.1 h with h | h
      · have := hupper h
        omega
      · have := hlower h
        omega
    · have := hdigit h
      omega
  · decide
  · decide
  · decide
  · decide

theorem isNameChar_of_isBlank {c : Char} (h : isBlank c = true) : isNameChar c = false := by
  cases hn : isNameChar c with
  | false => rfl
  | true =>
    rw [isBlank_of_isNameChar hn] at h
    exact h.symm

/-- outside of quotes a character that is no quote and no `>` belongs to the inside of the tag -/
theorem closeTag_cons {c : Char} (hq : isQuote c = false) (hc : c ≠ '>') (r : Text) :
    closeTag (c :: r) = (closeTag r).map fun t => (c :: t.1, t.2) := by
  simp [closeTag, closeTagIn, hq, hc]

/-! ## longer texts -/

theorem closeTagIn_append {q : Option Char} {s a b : Text} (t : Text)
    (h : closeTagIn q s = some (a, b)) : closeTagIn q (s ++ t) = some (a, b ++ t) := by
  induction s generalizing q a with
  | nil => cases q <;> simp [closeTagIn] at h
  | cons c r ih =>
    cases q with
    | none =>
      simp only [List.cons_append, closeTagIn] at h ⊢
      by_cases hc : c = '>'
      · rw [if_pos hc] at h ⊢
        simp only [Option.some.injEq, Prod.mk.injEq] at h
        rw [← h.1, ← h.2]
      · rw [if_neg hc] at h ⊢
        obtain ⟨u, hu, e⟩ := Option.map_eq_some_iff.1 h
        simp only [Prod.mk.injEq] at e
        rw [ih (a := u.1) (by rw [hu, ← e.2]), ← e.1]; rfl
    | some q =>
      simp only [List.cons_append, closeTagIn] at h ⊢
      obtain ⟨u, hu, e⟩ := Option.map_eq_some_iff.1 h
      simp only [Prod.mk.injEq] at e
      rw [ih (a := u.1) (by rw [hu, ← e.2]), ← e.1]; rfl

theorem closeTag_append {s a b : Text} (t : Text) (h : closeTag s = some (a, b)) :
    closeTag (s ++ t) = some (a, b ++ t) :=
  closeTagIn_append t h

theorem closeTagIn_of_append {q : Option Char} {s t a b : Text}
    (h : closeTagIn q (s ++ t) = some (a, b ++ t)) : closeTagIn q s = some (a, b) := by
  induction s generalizing q a with
  | nil =>
    have e := congrArg List.length (append_of_closeTagIn h)
    simp only [List.nil_append, List.length_append, List.length_cons] at e
    omega
  | cons c r ih =>
    cases q with
    | none =>
      simp only [List.cons_append, closeTagIn] at h ⊢
      by_cases hc : c = '>'
      · rw [if_pos hc] at h ⊢
        simp only [Option.some.injEq, Prod.mk.injEq, List.append_cancel_right_eq] at h
        rw [← h.1, h.2]
      · rw [if_neg hc] at h ⊢
        obtain ⟨u, hu, e⟩ := Option.map_eq_some_iff.1 h
        simp only [Prod.mk.injEq] at e
        rw [ih (a := u.1) (by rw [hu, ← e.2]), ← e.1]; rfl
    | some q =>
      simp only [List.cons_append, closeTagIn] at h ⊢
      obtain ⟨u, hu, e⟩ := Option.map_eq_some_iff.1 h
      simp only [Prod.mk.injEq] at e
      rw [ih (a := u.1) (by rw [hu, ← e.2]), ← e.1]; rfl

theorem closeTag_of_append {s t a b : Text} (h : closeTag (s ++ t) = some (a, b ++ t)) :
    closeTag s = some (a, b) :=
  closeTagIn_of_append h

/-! ## quiet texts -/

/-- the search for the end of a tag passes over the text, and no quote is open behind it -/
def Quiet (s : Text) : Prop :=
  ∀ t, closeTag (s ++ t) = (closeTag t).map fun u => (s ++ u.1, u.2)

theorem quiet_nil : Quiet [] := fun t => by simp

theorem Quiet.append {a b : Text} (ha : Quiet a) (hb : Quiet b) : Quiet (a ++ b) := by
  intro t
  rw [List.append_assoc, ha, hb, Option.map_map]
  simp [Function.comp_def]

theorem quiet_of_forall {s : Text} (h : ∀ c ∈ s, isQuote c = false ∧ c ≠ '>') : Quiet s := by
  induction s with
  | nil => exact quiet_nil
  | cons c r ih =>
    obtain ⟨⟨hq, hc⟩, hr⟩ := List.forall_mem_cons.1 h
    intro t
    rw [List.cons_append, closeTag_cons hq hc, ih hr, Option.map_map]
    rfl

theorem closeTagIn_quoted {q : Char} {s : Text} (h : q ∉ s) (t : Text) :
    closeTagIn (some q) (s ++ q :: t) = (closeTag t).map fun u => (s ++ q :: u.1, u.2) := by
  induction s with
  | nil => simp [closeTagIn, closeTag]
  | cons c r ih =>
    obtain ⟨hc, hr⟩ := not_or.1 fun e => h (List.mem_cons.2 e)
    rw [List.cons_append, closeTagIn, if_neg (Ne.symm hc), ih hr, Option.map_map]
    rfl

theorem quiet_quoted {q : Char} (hq : isQuote q = true) {s : Text} (h : q ∉ s) :
    Quiet (q :: s ++ [q]) := by
  intro t
  have hc : q ≠ '>' := by
    rintro rfl
    exact absurd hq (by decide)
  have e : q :: s ++ [q] ++ t = q :: (s ++ q :: t) := by simp
  rw [e, closeTag, closeTagIn, if_neg hc, hq, if_pos rfl, closeTagIn_quoted h, Option.map_map]
  simp [Function.comp_def]

theorem Quiet.closeTag_eq {s : Text} (h : Quiet s) (t : Text) :
    closeTag (s ++ '>' :: t) = some (s, t) := by
  rw [h, closeTag, closeTagIn, if_pos rfl, Option.map_some, List.append_nil]

/-! ## names -/

theorem closeTag_eq_map (r : Text) :
    closeTag r = (closeTag (r.dropWhile isNameChar)).map
      fun t => (r.takeWhile isNameChar ++ t.1, t.2) := by
  induction r with
  | nil => rfl
  | cons c r ih =>
    by_cases hc : isNameChar c = true
    · rw [List.dropWhile_cons_of_pos hc, List.takeWhile_cons_of_pos hc,
        closeTag_cons (isQuote_of_isNameChar hc) (isNameChar_ne hc (by decide)), ih,
        Option.map_map]
      rfl
    · rw [List.dropWhile_cons_of_neg hc, List.takeWhile_cons_of_neg hc]
      simp

theorem takeWhile_append_gt (a b : Text) :
    (a ++ '>' :: b).takeWhile isNameChar = a.takeWhile isNameChar := by
  induction a with
  | nil => rfl
  | cons c s ih =>
    by_cases hc : isNameChar c = true
    · rw [List.cons_append, List.takeWhile_cons_of_pos hc, List.takeWhile_cons_of_pos hc, ih]
    · rw [List.cons_append, List.takeWhile_cons_of_neg hc, List.takeWhile_cons_of_neg hc]

/-- the name at the start of a tag is the name at the start of its inside -/
theorem takeWhile_inside {r inside rest : Text} (h : closeTag r = some (inside, rest)) :
    inside.takeWhile isNameChar = r.takeWhile isNameChar := by
  rw [append_of_closeTag h, takeWhile_append_gt]

theorem afterTag_eq {s a b : Text} (h : closeTag s = some (a, b)) : afterTag s = b := by
  simp [afterTag, h]

theorem afterTag_eq_nil {s : Text} (h : closeTag s = none) : afterTag s = [] := by
  simp [afterTag, h]

end MarkdownModule.Html

import MarkdownModule.Html.Reference
import MarkdownModule.Proofs.Html.TagEnd
import MarkdownModule.Proofs.Json.Quote
import MarkdownModule.Proofs.Text.Ends

/-!
# References do not reach beyond white space

* `Html.readReference?_append`    white space behind a text changes no reference in it
* `Html.decodeReferences_append`  and is kept when the references of the text are replaced
-/

namespace MarkdownModule.Html

theorem isBlank_ne {c d : Char} (hc : isBlank c = true) (hd : isBlank d = false) : c ≠ d := by
  rintro rfl
  rw [hc] at hd
  exact Bool.noConfusion hd

theorem isAlphanum_of_isBlank {c : Char} (h : isBlank c = true) : c.isAlphanum = false := by
  refine Bool.eq_false_iff.2 fun ha => ?_
  have hn : isNameChar c = true := by simp [isNameChar, ha]
  rw [isNameChar_of_isBlank h] at hn
  exact Bool.noConfusion hn

theorem isHexDigit_of_isBlank {c : Char} (h : isBlank c = true) : isHexDigit c = false := by
  refine Bool.eq_false_iff.2 fun hx => ?_
  have ha := Json.isAlphanum_of_hexDigit? hx
  rw [isAlphanum_of_isBlank h] at ha
  exact Bool.noConfusion ha

section
variable {b : Text} (hb : ∀ c ∈ b, isBlank c = true)
include hb

theorem span_append {p : Char → Bool} (hp : ∀ c, isBlank c = true → p c = false) (s : Text) :
    (s ++ b).takeWhile p = s.takeWhile p ∧ (s ++ b).dropWhile p = s.dropWhile p ++ b := by
  induction s with
  | nil =>
    exact Text.span_of_forall (s := []) (fun c hc => absurd hc List.not_mem_nil)
      fun c hc => hp c (hb c (List.mem_of_mem_head? hc))
  | cons c s ih =>
    by_cases hc : p c = true
    · rw [List.cons_append, List.takeWhile_cons_of_pos hc, List.takeWhile_cons_of_pos hc,
        List.dropWhile_cons_of_pos hc, List.dropWhile_cons_of_pos hc, ih.1, ih.2]
      exact ⟨rfl, rfl⟩
    · rw [List.cons_append, List.takeWhile_cons_of_neg hc, List.takeWhile_cons_of_neg hc,
        List.dropWhile_cons_of_neg hc, List.dropWhile_cons_of_neg hc]
      exact ⟨rfl, rfl⟩

theorem afterSemicolon?_append (s : Text) :
    afterSemicolon? (s ++ b) = (afterSemicolon? s).map (· ++ b) := by
  cases s with
  | nil =>
    cases b with
    | nil => rfl
    | cons c b =>
      have hc := isBlank_ne (hb c List.mem_cons_self) (d := ';') (by decide)
      unfold afterSemicolon?
      split
      · next e => exact absurd (List.cons.inj e).1 hc
      · rfl
  | cons c s =>
    by_cases hc : c = ';'
    · rw [hc]
      rfl
    · unfold afterSemicolon?
      split
      · next e => exact absurd (List.cons.inj e).1 hc
      · split
        · next e => exact absurd (List.cons.inj e).1 hc
        · rfl

theorem readNumeric?_append {base : Nat} {digit : Char → Bool}
    (hd : ∀ c, isBlank c = true → digit c = false) (s : Text) :
    readNumeric? base digit (s ++ b) = (readNumeric? base digit s).map fun x => (x.1, x.2 ++ b) := by
  unfold readNumeric?
  rw [(span_append hb hd s).1, (span_append hb hd s).2, afterSemicolon?_append hb]
  cases afterSemicolon? (s.dropWhile digit) with
  | none => rfl
  | some r =>
    simp only [Option.map_some, Option.bind_eq_bind, Option.bind_some]
    split
    · rfl
    · rfl

theorem head?_append_ne {c : Char} (hc : isBlank c = false) {s : Text} (h : s.head? ≠ some c) :
    (s ++ b).head? ≠ some c := by
  cases s with
  | nil =>
    intro e
    exact isBlank_ne (hb c (List.mem_of_mem_head? e)) hc rfl
  | cons d s => exact h

end

/-- a reference that is named by letters and digits -/
theorem readReference?_named {s : Text} (h : s.head? ≠ some '#') :
    readReference? s = (afterSemicolon? (s.dropWhile Char.isAlphanum)).bind fun rest =>
      (namedText? (s.takeWhile Char.isAlphanum)).bind fun v =>
        v.toList.head?.map fun c => (c, rest) := by
  unfold readReference?
  split
  · exact absurd rfl h
  · exact absurd rfl h
  · exact absurd rfl h
  · simp only [Option.bind_eq_bind, Option.map_eq_bind]
    rfl

/-- a reference that is a decimal number -/
theorem readReference?_decimal {s : Text} (hx : s.head? ≠ some 'x') (hX : s.head? ≠ some 'X') :
    readReference? ('#' :: s) = readNumeric? 10 Char.isDigit s := by
  unfold readReference?
  split
  · next e => exact absurd (congrArg List.head? (List.cons.inj e).2) hx
  · next e => exact absurd (congrArg List.head? (List.cons.inj e).2) hX
  · next e => rw [(List.cons.inj e).2]
  · next hno => exact absurd rfl (hno s)

theorem readReference?_append {b : Text} (hb : ∀ c ∈ b, isBlank c = true) (s : Text) :
    readReference? (s ++ b) = (readReference? s).map fun x => (x.1, x.2 ++ b) := by
  have hdigit : ∀ c : Char, isBlank c = true → c.isDigit = false := fun c hc =>
    (Bool.or_eq_false_iff.1 (isAlphanum_of_isBlank hc)).2
  have hhex : ∀ c : Char, isBlank c = true → isHexDigit c = false := fun c => isHexDigit_of_isBlank
  by_cases hs : s.head? = some '#'
  · obtain ⟨u, rfl⟩ := List.head?_eq_some_iff.1 hs
    by_cases hx : u.head? = some 'x'
    · obtain ⟨u, rfl⟩ := List.head?_eq_some_iff.1 hx
      exact readNumeric?_append hb hhex u
    by_cases hX : u.head? = some 'X'
    · obtain ⟨u, rfl⟩ := List.head?_eq_some_iff.1 hX
      exact readNumeric?_append hb hhex u
    rw [List.cons_append, readReference?_decimal hx hX,
      readReference?_decimal (head?_append_ne hb (by decide) hx) (head?_append_ne hb (by decide) hX)]
    exact readNumeric?_append hb hdigit u
  · have hspan := span_append hb (p := Char.isAlphanum) (fun c => isAlphanum_of_isBlank) s
    rw [readReference?_named hs, readReference?_named (head?_append_ne hb (by decide) hs), hspan.1,
      hspan.2, afterSemicolon?_append hb]
    cases afterSemicolon? (s.dropWhile Char.isAlphanum) with
    | none => rfl
    | some r =>
      rw [Option.map_some, Option.bind_some, Option.bind_some]
      cases namedText? (s.takeWhile Char.isAlphanum) with
      | none => rfl
      | some v =>
        rw [Option.bind_some, Option.bind_some]
        cases v.toList.head? <;> rfl

theorem decodeReferences_cons {c : Char} (hc : c ≠ '&') (r : Text) :
    decodeReferences (c :: r) = c :: decodeReferences r := by rw [decodeReferences, if_neg hc]

theorem decodeReferences_reference {r rest : Text} {d : Char}
    (h : readReference? r = some (d, rest)) :
    decodeReferences ('&' :: r) = d :: decodeReferences rest := by
  rw [decodeReferences, if_pos rfl, h]

theorem decodeReferences_ampersand {r : Text} (h : readReference? r = none) :
    decodeReferences ('&' :: r) = '&' :: decodeReferences r := by
  rw [decodeReferences, if_pos rfl, h]

theorem decodeReferences_of_not_mem {s : Text} (h : '&' ∉ s) : decodeReferences s = s := by
  induction s with
  | nil => rw [decodeReferences]
  | cons c r ih =>
    obtain ⟨hc, hr⟩ := not_or.1 (mt List.mem_cons.2 h)
    rw [decodeReferences_cons (Ne.symm hc), ih hr]

theorem decodeReferences_ne_nil {s : Text} (h : s ≠ []) : decodeReferences s ≠ [] := by
  cases s with
  | nil => exact absurd rfl h
  | cons c r =>
    rw [decodeReferences]
    split
    · split
      · exact List.cons_ne_nil _ _
      · exact List.cons_ne_nil _ _
    · exact List.cons_ne_nil _ _

/-- **White space behind a text is kept when the references of the text are replaced.** -/
theorem decodeReferences_append {b : Text} (hb : ∀ c ∈ b, isBlank c = true) (s : Text) :
    decodeReferences (s ++ b) = decodeReferences s ++ b := by
  induction hk : s.length using Nat.strongRecOn generalizing s with
  | _ k ih =>
    cases s with
    | nil =>
      rw [decodeReferences, List.nil_append]
      exact decodeReferences_of_not_mem fun hm => isBlank_ne (hb _ hm) (by decide) rfl
    | cons c r =>
      rw [List.length_cons] at hk
      have hr := ih r.length (by omega) r rfl
      rw [List.cons_append]
      by_cases hc : c = '&'
      · have ha := readReference?_append hb r
        rw [hc]
        cases e : readReference? r with
        | none =>
          rw [e, Option.map_none] at ha
          rw [decodeReferences_ampersand ha, decodeReferences_ampersand e, hr, List.cons_append]
        | some x =>
          obtain ⟨d, rest⟩ := x
          have hl := length_of_readReference e
          rw [e, Option.map_some] at ha
          rw [decodeReferences_reference ha, decodeReferences_reference e,
            ih rest.length (by omega) rest rfl, List.cons_append]
      · rw [decodeReferences_cons hc, decodeReferences_cons hc, hr, List.cons_append]

end MarkdownModule.Html

import MarkdownModule.Markdown.Inline.Scan
import MarkdownModule.Proofs.Text.Cut
import MarkdownModule.Proofs.Text.Ends

/-!
# Readers of whole constructs

A reader that has found the end of a construct has not looked at what follows it: before any other
text it reads the same construct again.

* `Markdown.Whole`   such readers
* `Markdown.Tagged`  such readers of raw HTML, which tell what follows alone
-/

namespace MarkdownModule.Markdown

/-- what the reader takes from a text does not depend on what follows -/
def Whole {α : Type} (read : Text → Option (α × Text)) : Prop :=
  ∀ ⦃s x r⦄, read s = some (x, r) → ∃ w, s = w ++ r ∧ ∀ t, read (w ++ t) = some (x, t)

/-- a text is cut at the first character where a test fails -/
theorem cut_of_dropWhile {p : Char → Bool} {s r : Text} {c : Char} (h : s.dropWhile p = c :: r) :
    ∃ w, s = w ++ c :: r ∧ p c = false ∧ (∀ d ∈ w, p d = true) ∧
      ∀ t, (w ++ c :: t).takeWhile p = w ∧ (w ++ c :: t).dropWhile p = c :: t := by
  have hc : p c = false := by
    have := List.head?_dropWhile_not p s
    rw [h] at this
    exact this
  have hw : ∀ d ∈ s.takeWhile p, p d = true :=
    fun d hd => List.all_eq_true.1 List.all_takeWhile d hd
  refine ⟨s.takeWhile p, ?_, hc, hw, Text.span_cons_of_forall hw hc⟩
  rw [← h, List.takeWhile_append_dropWhile]

/-- a text is cut in the same way before any text that begins alike -/
theorem cut_before {p : Char → Bool} {s w r : Text} {c : Char} (h : s.dropWhile p = w ++ c :: r) :
    ∃ a, s = a ++ (w ++ c :: r) ∧ ∀ t, (a ++ (w ++ c :: t)).dropWhile p = w ++ c :: t := by
  cases w with
  | nil =>
    obtain ⟨a, ha, -, -, ht⟩ := cut_of_dropWhile h
    exact ⟨a, ha, fun t => (ht t).2⟩
  | cons d w =>
    obtain ⟨a, ha, -, -, ht⟩ := cut_of_dropWhile h
    exact ⟨a, ha, fun t => (ht (w ++ c :: t)).2⟩

theorem exists_cons_of_append {w r v : Text} {c d : Char} (h : w ++ c :: r = d :: v) (t : Text) :
    ∃ v', w ++ c :: t = d :: v' := by
  cases w with
  | nil => exact ⟨t, by rw [(List.cons.inj h).1]; rfl⟩
  | cons e w => exact ⟨w ++ c :: t, by rw [← (List.cons.inj h).1]; rfl⟩

theorem head?_append_cons (w t r : Text) (c : Char) :
    (w ++ c :: t).head? = (w ++ c :: r).head? := by
  cases w <;> rfl

/-! ## references -/

theorem afterSemicolon?_eq_some {s r : Text} : Html.afterSemicolon? s = some r ↔ s = ';' :: r := by
  unfold Html.afterSemicolon?
  split
  · next r' => simp
  · next hno => exact ⟨nofun, fun h => absurd h (hno r)⟩

theorem whole_readNumber? {base most : Nat} {digit : Char → Bool} :
    Whole (readNumber? base most digit) := by
  intro s x r h
  obtain ⟨rest, hrest, h⟩ := Option.bind_eq_some_iff.1 h
  obtain ⟨w, rfl, -, hw, ht⟩ := cut_of_dropWhile (afterSemicolon?_eq_some.1 hrest)
  rw [(ht rest).1] at h
  split at h
  · cases h
  · next hok =>
    cases h
    refine ⟨w ++ [';'], by rw [List.append_assoc]; rfl, fun t => ?_⟩
    rw [List.append_assoc]
    show readNumber? base most digit (w ++ ';' :: t) = _
    unfold readNumber?
    rw [(ht t).1, (ht t).2]
    exact if_neg hok

/-- a reference that is named by letters and digits -/
theorem readReference?_named {s : Text} (h : s.head? ≠ some '#') :
    readReference? s = (Html.afterSemicolon? (s.dropWhile Char.isAlphanum)).bind fun rest =>
      (Html.namedText? (s.takeWhile Char.isAlphanum)).map fun v => (v.toList, rest) := by
  unfold readReference?
  split
  · exact absurd rfl h
  · exact absurd rfl h
  · exact absurd rfl h
  · simp only [Option.bind_eq_bind]
    cases Html.afterSemicolon? (s.dropWhile Char.isAlphanum) with
    | none => rfl
    | some rest =>
      simp only [Option.bind_some]
      cases Html.namedText? (s.takeWhile Char.isAlphanum) <;> rfl

/-- a reference that is a decimal number -/
theorem readReference?_decimal {s : Text} (hx : s.head? ≠ some 'x') (hX : s.head? ≠ some 'X') :
    readReference? ('#' :: s) = readNumber? 10 7 Char.isDigit s := by
  unfold readReference?
  split
  · next e => exact absurd (congrArg List.head? (List.cons.inj e).2) hx
  · next e => exact absurd (congrArg List.head? (List.cons.inj e).2) hX
  · next e => rw [(List.cons.inj e).2]
  · next hno => exact absurd rfl (hno s)

theorem Whole.ne_nil {α : Type} {read : Text → Option (α × Text)} {w : Text} {x : α}
    (hnil : read [] = none) (h : ∀ t, read (w ++ t) = some (x, t)) : w ≠ [] := by
  rintro rfl
  exact absurd ((h []).symm.trans hnil) nofun

theorem head?_append_of_ne_nil {w : Text} (hw : w ≠ []) (s t : Text) :
    (w ++ s).head? = (w ++ t).head? := by
  cases w with
  | nil => exact absurd rfl hw
  | cons c w => rfl

theorem whole_readReference? : Whole readReference? := by
  intro s x r h
  by_cases hs : s.head? = some '#'
  · obtain ⟨u, rfl⟩ := List.head?_eq_some_iff.1 hs
    by_cases hx : u.head? = some 'x'
    · obtain ⟨u, rfl⟩ := List.head?_eq_some_iff.1 hx
      obtain ⟨w, rfl, ht⟩ := whole_readNumber? h
      exact ⟨'#' :: 'x' :: w, rfl, ht⟩
    · by_cases hX : u.head? = some 'X'
      · obtain ⟨u, rfl⟩ := List.head?_eq_some_iff.1 hX
        obtain ⟨w, rfl, ht⟩ := whole_readNumber? h
        exact ⟨'#' :: 'X' :: w, rfl, ht⟩
      · rw [readReference?_decimal hx hX] at h
        obtain ⟨w, rfl, ht⟩ := whole_readNumber? h
        have hw := head?_append_of_ne_nil (Whole.ne_nil rfl ht)
        refine ⟨'#' :: w, rfl, fun t => ?_⟩
        rw [hw r t] at hx hX
        exact (readReference?_decimal hx hX).trans (ht t)
  · rw [readReference?_named hs] at h
    obtain ⟨rest, hrest, h⟩ := Option.bind_eq_some_iff.1 h
    obtain ⟨v, hv, e⟩ := Option.map_eq_some_iff.1 h
    cases e
    obtain ⟨w, rfl, -, -, ht⟩ := cut_of_dropWhile (afterSemicolon?_eq_some.1 hrest)
    rw [(ht r).1] at hv
    have hne : w ++ [';'] ≠ [] := by simp
    have hcut : ∀ t, w ++ ';' :: t = (w ++ [';']) ++ t := fun t => by rw [List.append_assoc]; rfl
    refine ⟨w ++ [';'], hcut r, fun t => ?_⟩
    rw [hcut r, head?_append_of_ne_nil hne r t] at hs
    rw [readReference?_named hs, ← hcut t, (ht t).1, (ht t).2, hv]
    rfl

/-! ## destinations, titles and labels -/

/-- the text up to a character that closes it, and the text after that; some characters may not stand
in it, and after a backslash some do not count -/
def spanTo (closes stops escaped : Char → Bool) : Text → Option (Text × Text)
  | [] => none
  | '\\' :: c :: r =>
    if escaped c then (spanTo closes stops escaped r).map fun t => ('\\' :: c :: t.1, t.2)
    else (spanTo closes stops escaped (c :: r)).map fun t => ('\\' :: t.1, t.2)
  | c :: r =>
    if closes c then some ([], r)
    else if stops c then none
    else (spanTo closes stops escaped r).map fun t => (c :: t.1, t.2)

theorem bracketedSpan?_eq (s : Text) :
    bracketedSpan? s = spanTo (· = '>') (fun c => c = '\n' || c = '<')
      (fun c => c = '<' || c = '>' || c = '\\') s := by
  induction s using bracketedSpan?.induct with
  | case1 | case2 | case3 | case4 => rfl
  | case5 c r hc ih | case6 c r hc ih =>
    rw [bracketedSpan?, spanTo, ih]
    simp [hc]
  | case7 c r h1 h2 h3 h4 ih =>
    have hclose : ¬c = '>' := h1
    have hstop : ¬(c = '\n' ∨ c = '<') := fun h => h.elim h2 h3
    rw [bracketedSpan?, spanTo, ih]
    · simp [hclose, hstop]
    all_goals assumption

theorem titleSpan?_eq (close : Char) (s : Text) :
    titleSpan? close s = spanTo (· = close) (fun _ => false)
      (fun c => c = '"' || c = '\'' || c = ')' || c = '\\') s := by
  induction s using titleSpan?.induct close with
  | case1 => rfl
  | case2 c r hc ih | case3 c r hc ih =>
    rw [titleSpan?, spanTo, ih]
    simp [hc]
  | case4 r h1 => 
    rw [titleSpan?, spanTo]
    · simp
    all_goals assumption
  | case5 c r h1 hc ih => 
    rw [titleSpan?, spanTo, ih]
    · simp [hc]
    all_goals assumption

theorem Label.span?_eq (s : Text) :
    Label.span? s = spanTo (· = ']') (· = '[')
      (fun c => c = '[' || c = ']' || c = '\\') s := by
  induction s using Label.span?.induct with
  | case1 | case2 | case3 => rfl
  | case4 c r hc ih | case5 c r hc ih =>
    rw [Label.span?, spanTo, ih]
    simp [hc]
  | case6 c r h1 h2 h3 ih =>
    have hclose : ¬c = ']' := h1
    have hstop : ¬c = '[' := h2
    rw [Label.span?, spanTo, ih]
    · simp [hclose, hstop]
    all_goals assumption

/-- a character that is no backslash -/
theorem spanTo_cons {closes stops escaped : Char → Bool} {c : Char} (hc : c ≠ '\\') (s : Text) :
    spanTo closes stops escaped (c :: s) =
      if closes c then some ([], s)
      else if stops c then none
      else (spanTo closes stops escaped s).map fun t => (c :: t.1, t.2) := by
  rw [spanTo]
  exact fun _ _ h => absurd h hc

theorem whole_spanTo {closes stops escaped : Char → Bool} (hclose : closes '\\' = false) :
    Whole (spanTo closes stops escaped) := by
  intro s x r h
  induction s using spanTo.induct closes stops escaped generalizing x r with
  | case1 => cases h
  | case2 c u hc ih =>
    rw [spanTo, if_pos hc] at h
    obtain ⟨t, ht, e⟩ := Option.map_eq_some_iff.1 h
    cases e
    obtain ⟨w, rfl, hw⟩ := ih ht
    refine ⟨'\\' :: c :: w, rfl, fun t => ?_⟩
    rw [List.cons_append, List.cons_append, spanTo, if_pos hc, hw]
    rfl
  | case3 c u hc ih =>
    rw [spanTo, if_neg hc] at h
    obtain ⟨t, ht, e⟩ := Option.map_eq_some_iff.1 h
    cases e
    obtain ⟨w, hw, hread⟩ := ih ht
    obtain ⟨d, w, rfl⟩ := List.exists_cons_of_ne_nil (Whole.ne_nil rfl hread)
    cases hw
    refine ⟨'\\' :: c :: w, rfl, fun t => ?_⟩
    have := hread t
    rw [List.cons_append] at this
    rw [List.cons_append, List.cons_append, spanTo, if_neg hc, this]
    rfl
  | case4 c u h1 hc =>
    have hb : c ≠ '\\' := fun e => absurd hc (by rw [e, hclose]; decide)
    rw [spanTo_cons hb, if_pos hc] at h
    cases h
    exact ⟨[c], rfl, fun t => by rw [List.singleton_append, spanTo_cons hb, if_pos hc]⟩
  | case5 c u h1 hc hs =>
    rw [spanTo, if_neg hc, if_pos hs] at h
    · cases h
    · exact h1
  | case6 c u h1 hc hs ih =>
    have hb : c ≠ '\\' := by
      rintro rfl
      cases u with
      | nil => rw [spanTo, if_neg hc, if_neg hs] at h; cases h; exact h1
      | cons d u => exact h1 d u rfl rfl
    rw [spanTo_cons hb, if_neg hc, if_neg hs] at h
    obtain ⟨t, ht, e⟩ := Option.map_eq_some_iff.1 h
    cases e
    obtain ⟨w, rfl, hread⟩ := ih ht
    refine ⟨c :: w, rfl, fun t => ?_⟩
    rw [List.cons_append, spanTo_cons hb, if_neg hc, if_neg hs, hread]
    rfl

theorem whole_bracketedSpan? : Whole bracketedSpan? := by
  intro s x r h
  rw [bracketedSpan?_eq] at h
  obtain ⟨w, hw, ht⟩ := whole_spanTo (by decide) h
  exact ⟨w, hw, fun t => (bracketedSpan?_eq _).trans (ht t)⟩

theorem whole_titleSpan? {close : Char} (hclose : close ≠ '\\') : Whole (titleSpan? close) := by
  intro s x r h
  rw [titleSpan?_eq] at h
  obtain ⟨w, hw, ht⟩ := whole_spanTo (decide_eq_false hclose.symm) h
  exact ⟨w, hw, fun t => (titleSpan?_eq close _).trans (ht t)⟩

theorem whole_readTitle? : Whole readTitle? := by
  intro s x r h
  unfold readTitle? at h
  split at h
  · obtain ⟨w, rfl, ht⟩ := whole_titleSpan? (by decide) h
    exact ⟨'"' :: w, rfl, ht⟩
  · obtain ⟨w, rfl, ht⟩ := whole_titleSpan? (by decide) h
    exact ⟨'\'' :: w, rfl, ht⟩
  · obtain ⟨w, rfl, ht⟩ := whole_titleSpan? (by decide) h
    exact ⟨'(' :: w, rfl, ht⟩
  · cases h

theorem Label.whole_read? : Whole Label.read? := by
  intro s x r h
  obtain ⟨⟨label, rest⟩, hspan, hlabel⟩ := Option.bind_eq_some_iff.1 h
  rw [Label.span?_eq] at hspan
  obtain ⟨w, rfl, ht⟩ := whole_spanTo (by decide) hspan
  clear h
  change (if label.all isWide || Label.most < Text.byteSize label then none
    else some (label, rest)) = _ at hlabel
  split at hlabel
  · cases hlabel
  · next hok =>
    cases hlabel
    refine ⟨w, rfl, fun t => ?_⟩
    unfold Label.read?
    rw [Label.span?_eq, ht]
    exact if_neg hok

theorem plainSpan?_cons {most depth : Nat} {c : Char} (hc : c ≠ '\\') (s : Text) :
    plainSpan? most depth (c :: s) =
      if depth = 0 && (isWide c || c = ')') then some ([], c :: s)
      else if c = '(' then
        if depth < most then (plainSpan? most (depth + 1) s).map fun t => (c :: t.1, t.2) else none
      else if c = ')' then (plainSpan? most (depth - 1) s).map fun t => (c :: t.1, t.2)
      else if c = ' ' || isControlChar c then none
      else (plainSpan? most depth s).map fun t => (c :: t.1, t.2) := by
  rw [plainSpan?]
  exact fun _ _ h => absurd h hc

section
variable {most : Nat}

/-- the destination is found again before any text that begins as the one before which it was found -/
def PlainAgain (most depth : Nat) (s : Text) : Prop :=
  ∀ ⦃x r⦄, plainSpan? most depth s = some (x, r) →
    s = x ++ r ∧ ∀ t : Text, t.head? = r.head? → plainSpan? most depth (x ++ t) = some (x, t)

theorem PlainAgain.cons {depth depth' : Nat} {c : Char} {s : Text}
    (hstep : ∀ u, plainSpan? most depth (c :: u) =
      (plainSpan? most depth' u).map fun t => (c :: t.1, t.2))
    (h : PlainAgain most depth' s) : PlainAgain most depth (c :: s) := by
  intro x r hx
  rw [hstep] at hx
  obtain ⟨⟨x', r'⟩, hx', e⟩ := Option.map_eq_some_iff.1 hx
  cases e
  obtain ⟨rfl, ht⟩ := h hx'
  refine ⟨rfl, fun t htr => ?_⟩
  rw [List.cons_append, hstep, ht t htr]
  rfl

theorem PlainAgain.nil (depth : Nat) : PlainAgain most depth [] := by
  intro x r h
  have hx : x = [] ∧ r = [] := by
    rw [plainSpan?] at h
    split at h
    · cases h
      exact ⟨rfl, rfl⟩
    · cases h
  obtain ⟨rfl, rfl⟩ := hx
  exact ⟨rfl, fun t ht => by rw [List.head?_eq_none_iff.1 ht]; exact h⟩

theorem PlainAgain.escaped {depth : Nat} {c : Char} {s : Text}
    (hc : (c = '(' || c = ')' || c = '\\') = true) (h : PlainAgain most depth s) :
    PlainAgain most depth ('\\' :: c :: s) := by
  intro x r hx
  rw [plainSpan?, if_pos hc] at hx
  obtain ⟨⟨x', r'⟩, hx', e⟩ := Option.map_eq_some_iff.1 hx
  cases e
  obtain ⟨rfl, ht⟩ := h hx'
  refine ⟨rfl, fun t htr => ?_⟩
  rw [List.cons_append, List.cons_append, plainSpan?, if_pos hc, ht t htr]
  rfl

/-- a backslash in front of a character that it does not escape -/
theorem PlainAgain.backslash {depth : Nat} {c : Char} {s : Text}
    (hc : ¬(c = '(' || c = ')' || c = '\\') = true) (h : PlainAgain most depth (c :: s)) :
    PlainAgain most depth ('\\' :: c :: s) := by
  intro x r hx
  rw [plainSpan?, if_neg hc] at hx
  obtain ⟨⟨x', r'⟩, hx', e⟩ := Option.map_eq_some_iff.1 hx
  cases e
  obtain ⟨hs, ht⟩ := h hx'
  refine ⟨by rw [hs]; rfl, fun t htr => ?_⟩
  have hhead : (x' ++ t).head? = some c := by
    cases x' with
    | nil => rw [List.nil_append, htr, ← List.head?_cons (a := c) (l := s), hs]; rfl
    | cons d x' => exact (congrArg List.head? hs).symm
  obtain ⟨u, hu⟩ := List.head?_eq_some_iff.1 hhead
  have := ht t htr
  rw [hu] at this
  rw [List.cons_append, hu, plainSpan?, if_neg hc, this]
  rfl

theorem PlainAgain.lastBackslash (depth : Nat) : PlainAgain most depth ['\\'] := by
  have hstep : plainSpan? most depth ['\\'] =
      (plainSpan? most depth []).map fun t => ('\\' :: t.1, t.2) := by
    simp [plainSpan?, isWide, isGap, isControlChar]
  intro x r h
  rw [hstep] at h
  obtain ⟨⟨x', r'⟩, hx', e⟩ := Option.map_eq_some_iff.1 h
  cases e
  obtain ⟨hx, -⟩ := PlainAgain.nil depth hx'
  obtain ⟨rfl, rfl⟩ := List.append_eq_nil_iff.1 hx.symm
  exact ⟨rfl, fun t ht => by rw [List.head?_eq_none_iff.1 ht, List.append_nil, hstep, hx']; rfl⟩

theorem plainAgain (depth : Nat) (s : Text) : PlainAgain most depth s := by
  induction depth, s using plainSpan?.induct most with
  | case1 => exact .nil 0
  | case2 depth hd => exact .nil depth
  | case3 depth c s hc ih => exact ih.escaped hc
  | case4 depth c s hc ih => exact ih.backslash hc
  | case5 depth c s h1 hend =>
    intro x r h
    rw [plainSpan?, if_pos hend] at h
    · cases h
      refine ⟨rfl, fun t ht => ?_⟩
      obtain ⟨u, rfl⟩ := List.head?_eq_some_iff.1 ht
      have hc : c ≠ '\\' := by
        rintro rfl
        simp [isWide, isGap] at hend
      rw [List.nil_append, plainSpan?_cons hc, if_pos hend]
    · exact h1
  | case6 depth s hmost h1 hend ih =>
    refine ih.cons fun u => ?_
    rw [plainSpan?_cons (by decide), if_neg hend, if_pos rfl, if_pos hmost]
  | case7 depth s hmost h1 hend =>
    intro x r h
    rw [plainSpan?_cons (by decide), if_neg hend, if_pos rfl, if_neg hmost] at h
    cases h
  | case8 depth s h1 hend hopen ih =>
    refine ih.cons fun u => ?_
    rw [plainSpan?_cons (by decide), if_neg hend, if_neg hopen, if_pos rfl]
  | case9 depth c s h1 hend hopen hclose hstop =>
    intro x r h
    rw [plainSpan?, if_neg hend, if_neg hopen, if_neg hclose, if_pos hstop] at h
    · cases h
    · exact h1
  | case10 depth c s h1 hend hopen hclose hstop ih =>
    by_cases hc : c = '\\'
    · subst hc
      cases s with
      | cons d s => exact absurd rfl fun e => h1 d s e rfl
      | nil => exact .lastBackslash depth
    · refine ih.cons fun u => ?_
      rw [plainSpan?_cons hc, if_neg hend, if_neg hopen, if_neg hclose, if_neg hstop]

theorem ne_nil_of_plainSpan? {depth : Nat} {c : Char} {s x r : Text}
    (hend : (depth = 0 && (isWide c || c = ')')) = false)
    (h : plainSpan? most depth (c :: s) = some (x, r)) : x ≠ [] := by
  rintro rfl
  by_cases hc : c = '\\'
  · subst hc
    obtain ⟨hs, ht⟩ := plainAgain depth _ h
    rw [List.nil_append] at hs
    have := ht ['\\'] (by rw [← hs]; rfl)
    rw [List.nil_append, plainSpan?, hend] at this
    · simp [isControlChar] at this
    · exact fun _ _ _ => nofun
  · rw [plainSpan?_cons hc, hend] at h
    simp only [Bool.false_eq_true, if_false] at h
    split at h
    · split at h <;> simp at h
    · split at h
      · simp at h
      · split at h <;> simp at h

theorem readDestination?_eq_some {s x r : Text} (h : readDestination? most s = some (x, r)) :
    ∃ d, s = d ++ r ∧ (∃ c d', d = c :: d' ∧ isWide c = false ∧ c ≠ ')') ∧
      ∀ t : Text, t.head? = r.head? → readDestination? most (d ++ t) = some (x, t) := by
  unfold readDestination? at h
  split at h
  · cases h
  · obtain ⟨w, rfl, ht⟩ := whole_bracketedSpan? h
    exact ⟨'<' :: w, rfl, ⟨'<', w, rfl, by decide, by decide⟩, fun t _ => ht t⟩
  · next c u hlt =>
    split at h
    · cases h
    · next hc =>
      simp only [Bool.or_eq_true, decide_eq_true_eq, not_or] at hc
      obtain ⟨⟨hspace, hclose⟩, hcontrol⟩ := hc
      have hwide : isWide c = false := by
        rw [isWide, isGap, Bool.or_eq_false_iff, Bool.or_eq_false_iff]
        refine ⟨⟨decide_eq_false hspace, decide_eq_false ?_⟩, decide_eq_false ?_⟩ <;>
        · rintro rfl
          exact hcontrol (by decide)
      have hne := @ne_nil_of_plainSpan? most 0 _ _ _ _ (by simp [hwide, hclose]) h
      obtain ⟨hu, ht⟩ := plainAgain 0 _ h
      obtain ⟨d, x, rfl⟩ := List.exists_cons_of_ne_nil hne
      cases hu
      refine ⟨c :: x, rfl, ⟨c, x, rfl, hwide, hclose⟩, fun t htr => ?_⟩
      rw [List.cons_append, readDestination?]
      · rw [if_neg (by simp [hspace, hclose, hcontrol])]
        exact ht t htr
      · exact hlt

end

/-! ## resources -/

theorem closeResource?_eq_some {res res' : Resource} {s r : Text}
    (h : closeResource? res s = some (res', r)) : res' = res ∧ s = ')' :: r := by
  unfold closeResource? at h
  split at h
  · cases h
    exact ⟨rfl, rfl⟩
  · cases h

/-- what follows the destination of a resource: perhaps a title, and the end -/
def endResource? (destination s : Text) : Option (Resource × Text) :=
  let after := s.dropWhile isWide
  if after.length < s.length && opensTitle after then
    (readTitle? after).bind fun t =>
      closeResource? ⟨decode destination, titleOf t.1⟩ (t.2.dropWhile isWide)
  else closeResource? ⟨decode destination, none⟩ after

theorem readResource?_of_ne {s : Text} (h : ∀ r, s.dropWhile isWide ≠ ')' :: r) :
    readResource? s = (readDestination? mostOpen (s.dropWhile isWide)).bind fun t =>
      endResource? t.1 t.2 := by
  unfold readResource?
  split
  · next r e => exact absurd e (h r)
  · rfl

theorem endResource?_eq_some {d s r : Text} {x : Resource} (h : endResource? d s = some (x, r)) :
    ∃ w, w ≠ [] ∧ s = w ++ r ∧ ∀ t, endResource? d (w ++ t) = some (x, t) := by
  unfold endResource? at h
  dsimp only at h
  split at h
  · next hopens =>
    obtain ⟨⟨title, v⟩, htitle, hend⟩ := Option.bind_eq_some_iff.1 h
    obtain ⟨rfl, hv⟩ := closeResource?_eq_some hend
    obtain ⟨g, rfl, -, -, hg⟩ := cut_of_dropWhile hv
    obtain ⟨w, hw, hread⟩ := whole_readTitle? htitle
    obtain ⟨c, w, rfl⟩ := List.exists_cons_of_ne_nil (Whole.ne_nil rfl hread)
    rw [List.cons_append] at hw
    obtain ⟨g', rfl, hc, hg', ht'⟩ := cut_of_dropWhile hw
    refine ⟨g' ++ (c :: w) ++ (g ++ [')']), by simp, by simp, fun t => ?_⟩
    have hs : g' ++ (c :: w) ++ (g ++ [')']) ++ t = g' ++ c :: (w ++ (g ++ ')' :: t)) := by simp
    have hlength : 0 < g'.length := by
      rw [(ht' _).2] at hopens
      simp only [List.length_cons, List.length_append, Bool.and_eq_true,
        decide_eq_true_eq] at hopens
      omega
    have hopen : opensTitle (c :: (w ++ (g ++ ')' :: t))) = true := by
      rw [(ht' _).2, Bool.and_eq_true] at hopens
      exact hopens.2
    unfold endResource?
    rw [hs, (ht' _).2]
    dsimp only
    rw [if_pos]
    · have := hread (g ++ ')' :: t)
      rw [List.cons_append] at this
      rw [this, Option.bind_some]
      dsimp only
      rw [(hg t).2]
      rfl
    · rw [hopen, Bool.and_true, decide_eq_true_eq, List.length_append]
      omega
  · obtain ⟨rfl, hs⟩ := closeResource?_eq_some h
    obtain ⟨g, rfl, -, -, hg⟩ := cut_of_dropWhile hs
    refine ⟨g ++ [')'], by simp, by simp, fun t => ?_⟩
    have hs : g ++ [')'] ++ t = g ++ ')' :: t := by simp
    unfold endResource?
    rw [hs, (hg t).2]
    dsimp only
    rw [if_neg (by simp [opensTitle])]
    rfl

theorem whole_readResource? : Whole readResource? := by
  intro s x r h
  by_cases hclose : ∃ u, s.dropWhile isWide = ')' :: u
  · obtain ⟨u, hu⟩ := hclose
    obtain ⟨w, rfl, -, -, ht⟩ := cut_of_dropWhile hu
    have hread : ∀ t, readResource? (w ++ ')' :: t) = some (⟨[], none⟩, t) := by
      intro t
      unfold readResource?
      rw [(ht t).2]
      rfl
    rw [hread] at h
    cases h
    have hcut : ∀ t, w ++ ')' :: t = (w ++ [')']) ++ t := fun t => by rw [List.append_assoc]; rfl
    exact ⟨w ++ [')'], hcut r, fun t => by rw [← hcut, hread]⟩
  · have hne : ∀ u, s.dropWhile isWide ≠ ')' :: u := fun u hu => hclose ⟨u, hu⟩
    rw [readResource?_of_ne hne] at h
    obtain ⟨⟨dest, u⟩, hd, h⟩ := Option.bind_eq_some_iff.1 h
    obtain ⟨d, hs, ⟨c, d', rfl, hc, hc'⟩, hdest⟩ := readDestination?_eq_some hd
    obtain ⟨w, hw, rfl, ht⟩ := endResource?_eq_some h
    obtain ⟨g, rfl, -, hg, -⟩ := cut_of_dropWhile hs
    refine ⟨g ++ (c :: d') ++ w, by simp, fun t => ?_⟩
    have hdrop : (g ++ (c :: d') ++ w ++ t).dropWhile isWide = c :: d' ++ (w ++ t) := by
      rw [List.append_assoc, List.append_assoc]
      exact (Text.span_cons_of_forall hg hc _).2
    rw [readResource?_of_ne, hdrop, hdest _ (head?_append_of_ne_nil hw t r), Option.bind_some, ht]
    intro u hu
    rw [hdrop] at hu
    exact hc' (List.cons.inj hu).1

/-! ## spans and autolinks -/

theorem drop_length_takeWhile (p : Char → Bool) (s : Text) :
    s.drop (s.takeWhile p).length = s.dropWhile p :=
  (congrArg (List.drop _) List.takeWhile_append_dropWhile.symm).trans (List.drop_left' rfl)

theorem exists_run (c : Char) (s : Text) :
    ∃ t : Text, s = List.replicate (runLength c s) c ++ t ∧ t.head? ≠ some c ∧
      s.drop (runLength c s) = t := by
  have htake : s.takeWhile (· = c) = List.replicate (runLength c s) c := by
    refine List.eq_replicate_iff.2 ⟨rfl, fun d hd => ?_⟩
    exact of_decide_eq_true (List.all_eq_true.1 List.all_takeWhile d hd)
  have hcut := (List.takeWhile_append_dropWhile (p := (· = c)) (l := s)).symm
  rw [htake] at hcut
  refine ⟨s.dropWhile (· = c), hcut, fun h => ?_, ?_⟩
  · have := List.head?_dropWhile_not (· = c) s
    rw [h] at this
    simp at this
  · exact drop_length_takeWhile _ s

theorem runLength_replicate {c : Char} {t : Text} (ht : t.head? ≠ some c) (k : Nat) :
    runLength c (List.replicate k c ++ t) = k := by
  have hspan := (Text.span_of_forall (p := (· = c)) (s := List.replicate k c) (t := t)
    (fun d hd => decide_eq_true (List.eq_of_mem_replicate hd))
    fun d hd => decide_eq_false fun e => ht (e ▸ hd)).1
  unfold runLength
  rw [hspan, List.length_replicate]

/-- a run of marks before a text that does not go on with it -/
theorem spanUntil?_run {c : Char} {t : Text} (ht : t.head? ≠ some c) (n fuel k : Nat) :
    spanUntil? c n (fuel + 1) (List.replicate (k + 1) c ++ t) =
      if k + 1 = n then some ([], t)
      else (spanUntil? c n fuel t).map fun a => (List.replicate (k + 1) c ++ a.1, a.2) := by
  have hlength := runLength_replicate ht (k + 1)
  rw [List.replicate_succ, List.cons_append] at hlength ⊢
  rw [spanUntil?, if_pos rfl, hlength]
  have hdrop : (c :: (List.replicate k c ++ t)).drop (k + 1) = t := by
    rw [List.drop_succ_cons, List.drop_left' (List.length_replicate ..)]
  dsimp only
  rw [hdrop, List.replicate_succ]

theorem spanUntil?_eq_some {c : Char} {n : Nat} (fuel : Nat) {s x r : Text}
    (h : spanUntil? c n fuel s = some (x, r)) :
    ∃ w, w ≠ [] ∧ s = w ++ r ∧ r.head? ≠ some c ∧
      ∀ (t : Text) fuel', t.head? ≠ some c → w.length ≤ fuel' →
        spanUntil? c n fuel' (w ++ t) = some (x, t) := by
  induction fuel generalizing s x with
  | zero => cases h
  | succ fuel ih =>
    cases s with
    | nil => cases h
    | cons d s =>
      rw [spanUntil?] at h
      split at h
      · next hd =>
        subst hd
        obtain ⟨u, hu, hhead, hdrop⟩ := exists_run d (d :: s)
        obtain ⟨k, hk⟩ : ∃ k, runLength d (d :: s) = k + 1 :=
          ⟨(s.takeWhile (· = d)).length, by simp [runLength]⟩
        rw [hk] at hu hdrop h
        dsimp only at h
        rw [hdrop] at h
        split at h
        · next hn =>
          cases h
          refine ⟨List.replicate (k + 1) d, by simp [List.replicate_succ], hu, hhead, ?_⟩
          intro t fuel' ht hfuel
          rw [List.length_replicate] at hfuel
          obtain ⟨m, rfl⟩ : ∃ m, fuel' = m + 1 := ⟨fuel' - 1, by omega⟩
          rw [spanUntil?_run ht, if_pos hn]
        · next hn =>
          obtain ⟨⟨x', r'⟩, hx, e⟩ := Option.map_eq_some_iff.1 h
          cases e
          obtain ⟨w, hw, rfl, hr, ht⟩ := ih hx
          refine ⟨List.replicate (k + 1) d ++ w, by simp [List.replicate_succ],
            by rw [hu, List.append_assoc], hr, fun t fuel' htc hfuel => ?_⟩
          rw [List.length_append, List.length_replicate] at hfuel
          obtain ⟨m, rfl⟩ : ∃ m, fuel' = m + 1 := ⟨fuel' - 1, by omega⟩
          rw [List.append_assoc, spanUntil?_run (by rwa [head?_append_of_ne_nil hw t r']), if_neg hn,
            ht t m htc (by omega)]
          rfl
      · next hd =>
        obtain ⟨⟨x', r'⟩, hx, e⟩ := Option.map_eq_some_iff.1 h
        cases e
        obtain ⟨w, hw, rfl, hr, ht⟩ := ih hx
        refine ⟨d :: w, List.cons_ne_nil d w, rfl, hr, fun t fuel' htc hfuel => ?_⟩
        rw [List.length_cons] at hfuel
        obtain ⟨m, rfl⟩ : ∃ m, fuel' = m + 1 := ⟨fuel' - 1, by omega⟩
        rw [List.cons_append, spanUntil?, if_neg hd, ht t m htc (by omega)]
        rfl

/-- a span ends before a character that is not its mark -/
theorem readSpan?_eq_some {c : Char} {s x r : Text} (h : readSpan? c s = some (x, r)) :
    ∃ w, w ≠ [] ∧ s = w ++ r ∧ r.head? ≠ some c ∧
      ∀ t : Text, t.head? ≠ some c → readSpan? c (w ++ t) = some (x, t) := by
  obtain ⟨u, hu, hhead, hdrop⟩ := exists_run c s
  generalize hk : runLength c s = k at hu hdrop
  unfold readSpan? at h
  dsimp only at h
  rw [hk, hdrop] at h
  obtain ⟨w, hw, rfl, hr, ht⟩ := spanUntil?_eq_some _ h
  refine ⟨List.replicate k c ++ w, by simp [hw], by rw [hu, List.append_assoc], hr,
    fun t htc => ?_⟩
  have hlength := runLength_replicate (by rwa [head?_append_of_ne_nil hw t r]) k
  unfold readSpan?
  rw [List.append_assoc, hlength]
  dsimp only
  rw [List.drop_left' (List.length_replicate ..)]
  exact ht t _ htc (by simp only [List.length_append]; omega)

/-- what the reader takes ends with a `>`, and does not depend on what follows -/
def Tagged (rest : Text → Option Text) : Prop :=
  ∀ ⦃s r⦄, rest s = some r → ∃ w, s = w ++ '>' :: r ∧ ∀ t, rest (w ++ '>' :: t) = some t

theorem readAutolink?_eq_some {s r : Text} {x : Text × Text} (h : readAutolink? s = some (x, r)) :
    ∃ w, s = w ++ '>' :: r ∧ (∀ d ∈ w, inAutolink d = true) ∧
      ∀ t, readAutolink? (w ++ '>' :: t) = some (x, t) := by
  unfold readAutolink? at h
  dsimp only at h
  rw [drop_length_takeWhile] at h
  split at h
  · next u hu =>
    obtain ⟨w, rfl, -, hw, ht⟩ := cut_of_dropWhile hu
    rw [(ht u).1] at h
    have hr : u = r := by
      split at h
      · cases h
        rfl
      · split at h
        · cases h
          rfl
        · cases h
    subst hr
    refine ⟨w, rfl, hw, fun t => ?_⟩
    unfold readAutolink?
    dsimp only
    rw [drop_length_takeWhile, (ht t).1, (ht t).2]
    split at h
    · next hs =>
      cases h
      exact if_pos hs
    · next hs =>
      split at h
      · next hm =>
        cases h
        exact (if_neg hs).trans (if_pos hm)
      · cases h
  · cases h

/-! ## raw HTML -/

namespace RawTag

theorem quotedEnd?_eq_some {q : Char} {s r : Text} (h : quotedEnd? q s = some r) :
    ∃ w, s = w ++ r ∧ r ≠ [] ∧ ∀ t : Text, t.head? = r.head? → quotedEnd? q (w ++ t) = some t := by
  unfold quotedEnd? at h
  split at h
  · cases h
  · cases h
  · next d c u hu =>
    obtain ⟨w, rfl, -, -, ht⟩ := cut_of_dropWhile hu
    split at h
    · next hc =>
      cases h
      refine ⟨w ++ [d], by simp, List.cons_ne_nil c u, fun t htr => ?_⟩
      obtain ⟨v, rfl⟩ := List.head?_eq_some_iff.1 htr
      unfold quotedEnd?
      rw [List.append_assoc, List.singleton_append, (ht _).2]
      exact if_pos hc
    · cases h

theorem bareEnd?_eq_some {setting : Setting} {s r : Text} (h : bareEnd? setting s = some r) :
    ∃ w, s = w ++ r ∧ r ≠ [] ∧
      ∀ t : Text, t.head? = r.head? → bareEnd? setting (w ++ t) = some t := by
  unfold bareEnd? at h
  split at h
  · cases h
  · next c u hu =>
    obtain ⟨w, rfl, -, -, ht⟩ := cut_of_dropWhile hu
    split at h
    · cases h
    · next hc =>
      cases h
      refine ⟨w, rfl, List.cons_ne_nil c u, fun t htr => ?_⟩
      obtain ⟨v, rfl⟩ := List.head?_eq_some_iff.1 htr
      unfold bareEnd?
      rw [(ht v).2]
      exact if_neg hc

section
variable {setting : Setting} {fuel : Nat} {s r v : Text} {c : Char}

theorem attributesEnd?_quoted (hs : s.dropWhile isWide = '=' :: r)
    (hr : r.dropWhile isWide = c :: v) (hc : (c = '"' || c = '\'') = true) :
    attributesEnd? setting (fuel + 1) true s =
      (quotedEnd? c v).bind (attributesEnd? setting fuel false) := by
  rw [attributesEnd?, hs]
  refine (if_pos rfl).trans ?_
  rw [hr]
  exact if_pos hc

theorem attributesEnd?_bare (hs : s.dropWhile isWide = '=' :: r)
    (hr : r.dropWhile isWide = c :: v) (hc : ¬(c = '"' || c = '\'') = true)
    (hstop : ¬"<=>\x60".toList.contains c = true) :
    attributesEnd? setting (fuel + 1) true s =
      (bareEnd? setting (c :: v)).bind (attributesEnd? setting fuel (setting = .ownLine)) := by
  rw [attributesEnd?, hs]
  refine (if_pos rfl).trans ?_
  rw [hr]
  exact (if_neg hc).trans (if_neg hstop)

theorem attributesEnd?_name {assign : Bool} (hs : s.dropWhile isWide = c :: r)
    (hc : startsAttribute c = true) :
    attributesEnd? setting (fuel + 1) assign s =
      attributesEnd? setting fuel true (r.dropWhile inAttribute) := by
  rw [attributesEnd?, hs]
  split
  · next e => cases e
  · next e =>
    cases e
    exact absurd hc (by decide)
  · next e =>
    cases e
    exact absurd hc (by decide)
  · next e =>
    cases e
    exact absurd hc (by decide)
  · next e =>
    cases e
    exact if_pos hc

end

/-- the attributes are read before the end of their tag, whatever text is behind it -/
def ReadsAttributes (setting : Setting) (assign : Bool) (w : Text) : Prop :=
  ∀ t fuel, w.length < fuel → attributesEnd? setting fuel assign (w ++ '>' :: t) = some t

namespace ReadsAttributes

variable {setting : Setting} {assign assign' : Bool} {g g' q w : Text} {c : Char}

theorem of_end (h : ∀ t fuel, attributesEnd? setting (fuel + 1) assign (w ++ '>' :: t) = some t) :
    ReadsAttributes setting assign w := by
  intro t fuel hfuel
  obtain ⟨m, rfl⟩ : ∃ m, fuel = m + 1 := ⟨fuel - 1, by omega⟩
  exact h t m

theorem of_step (hlt : w.length < q.length)
    (hstep : ∀ t fuel, attributesEnd? setting (fuel + 1) assign (q ++ '>' :: t) =
      attributesEnd? setting fuel assign' (w ++ '>' :: t))
    (hw : ReadsAttributes setting assign' w) : ReadsAttributes setting assign q := by
  intro t fuel hfuel
  obtain ⟨m, rfl⟩ : ∃ m, fuel = m + 1 := ⟨fuel - 1, by omega⟩
  rw [hstep]
  exact hw t m (by omega)

theorem name (hg : ∀ t, (g ++ c :: t).dropWhile isWide = c :: t) (hc : startsAttribute c = true)
    (ha : ∀ t, (q ++ (w ++ '>' :: t)).dropWhile inAttribute = w ++ '>' :: t)
    (hw : ReadsAttributes setting true w) :
    ReadsAttributes setting assign (g ++ c :: (q ++ w)) := by
  refine hw.of_step (by simp only [List.length_append, List.length_cons]; omega) fun t fuel => ?_
  have hcut : g ++ c :: (q ++ w) ++ '>' :: t = g ++ c :: (q ++ (w ++ '>' :: t)) := by simp
  rw [hcut, attributesEnd?_name (hg _) hc, ha]

variable (hassign : ∀ t, (g' ++ '=' :: t).dropWhile isWide = '=' :: t)
include hassign

theorem quoted (hg : ∀ t, (g ++ c :: t).dropWhile isWide = c :: t)
    (hc : (c = '"' || c = '\'') = true)
    (hq : ∀ t, quotedEnd? c (q ++ (w ++ '>' :: t)) = some (w ++ '>' :: t))
    (hw : ReadsAttributes setting false w) :
    ReadsAttributes setting true (g' ++ '=' :: (g ++ c :: (q ++ w))) := by
  refine hw.of_step (by simp only [List.length_append, List.length_cons]; omega) fun t fuel => ?_
  have hcut : g' ++ '=' :: (g ++ c :: (q ++ w)) ++ '>' :: t =
      g' ++ '=' :: (g ++ c :: (q ++ (w ++ '>' :: t))) := by simp
  rw [hcut, attributesEnd?_quoted (hassign _) (hg _) hc, hq, Option.bind_some]

theorem bare (hg : ∀ t, (g ++ (q ++ (w ++ '>' :: t))).dropWhile isWide = q ++ (w ++ '>' :: t))
    (hhead : ∀ t, (q ++ (w ++ '>' :: t)).head? = some c)
    (hc : ¬(c = '"' || c = '\'') = true) (hstop : ¬"<=>\x60".toList.contains c = true)
    (hq : ∀ t, bareEnd? setting (q ++ (w ++ '>' :: t)) = some (w ++ '>' :: t))
    (hw : ReadsAttributes setting (setting = .ownLine) w) :
    ReadsAttributes setting true (g' ++ '=' :: (g ++ (q ++ w))) := by
  refine hw.of_step (by simp only [List.length_append, List.length_cons]; omega) fun t fuel => ?_
  have hcut : g' ++ '=' :: (g ++ (q ++ w)) ++ '>' :: t =
      g' ++ '=' :: (g ++ (q ++ (w ++ '>' :: t))) := by simp
  obtain ⟨v, hv⟩ := List.head?_eq_some_iff.1 (hhead t)
  have hdrop := hg t
  rw [hcut, attributesEnd?_bare (hassign _) (hdrop.trans hv) hc hstop, ← hv, hq, Option.bind_some]

end ReadsAttributes

theorem attributesEnd?_eq_some {setting : Setting} (fuel : Nat) {assign : Bool} {s r : Text}
    (h : attributesEnd? setting fuel assign s = some r) :
    ∃ w, s = w ++ '>' :: r ∧ ReadsAttributes setting assign w := by
  induction fuel generalizing assign s with
  | zero => cases h
  | succ fuel ih =>
    rw [attributesEnd?] at h
    split at h
    · cases h
    · next u hu =>
      cases h
      obtain ⟨g, rfl, -, -, hg⟩ := cut_of_dropWhile hu
      refine ⟨g, rfl, .of_end fun t fuel => ?_⟩
      rw [attributesEnd?, (hg t).2]
      rfl
    · next u hu =>
      cases h
      obtain ⟨g, rfl, -, -, hg⟩ := cut_of_dropWhile hu
      refine ⟨g ++ ['/'], by simp, .of_end fun t fuel => ?_⟩
      rw [attributesEnd?, List.append_assoc, List.singleton_append, (hg _).2]
      rfl
    · next u hu =>
      obtain ⟨g, rfl, -, -, hg⟩ := cut_of_dropWhile hu
      split at h
      · next hassign =>
        subst hassign
        split at h
        · cases h
        · next c v hv =>
          obtain ⟨g', rfl, -, -, hg'⟩ := cut_of_dropWhile hv
          split at h
          · next hc =>
            obtain ⟨v', hvalue, hrest⟩ := Option.bind_eq_some_iff.1 h
            obtain ⟨q, rfl, -, hq⟩ := quotedEnd?_eq_some hvalue
            obtain ⟨w, rfl, hw⟩ := ih hrest
            exact ⟨g ++ '=' :: (g' ++ c :: (q ++ w)), by simp,
              hw.quoted (fun t => (hg t).2) (fun t => (hg' t).2) hc
                fun t => hq _ (head?_append_cons w t r '>')⟩
          · next hc =>
            split at h
            · cases h
            · next hstop =>
              obtain ⟨v', hvalue, hrest⟩ := Option.bind_eq_some_iff.1 h
              obtain ⟨q, hq, -, hread⟩ := bareEnd?_eq_some hvalue
              obtain ⟨w, rfl, hw⟩ := ih hrest
              have hvalue : ∀ t, ∃ v', q ++ (w ++ '>' :: t) = c :: v' := fun t => by
                rw [← List.append_assoc]
                exact exists_cons_of_append ((List.append_assoc q w _).trans hq.symm) t
              refine ⟨g ++ '=' :: (g' ++ (q ++ w)), by rw [hq]; simp,
                hw.bare (fun t => (hg t).2) (fun t => ?_) (fun t => ?_) hc hstop
                  fun t => hread _ (head?_append_cons w t r '>')⟩
              · obtain ⟨v', hv'⟩ := hvalue t
                rw [hv']
                exact (hg' v').2
              · obtain ⟨v', hv'⟩ := hvalue t
                rw [hv']
                rfl
      · cases h
    · next c u hgt hslash heq hu =>
      obtain ⟨g, rfl, -, -, hg⟩ := cut_of_dropWhile hu
      split at h
      · next hc =>
        obtain ⟨w, hw, hread⟩ := ih h
        obtain ⟨a, rfl, ha⟩ := cut_before hw
        exact ⟨g ++ c :: (a ++ w), by simp, hread.name (fun t => (hg t).2) hc ha⟩
      · cases h

theorem tagged_startTagEnd? {setting : Setting} : Tagged (startTagEnd? setting) := by
  intro s r h
  unfold startTagEnd? at h
  split at h
  · cases h
  · next c u =>
    split at h
    · next hc =>
      split at h
      · cases h
      · next d v hv =>
        split at h
        · next hd =>
          obtain ⟨w, hw, ht⟩ := attributesEnd?_eq_some _ h
          rw [hw] at hv
          obtain ⟨a, ha, hdrop⟩ := cut_before hv
          refine ⟨a ++ w, by rw [ha, List.append_assoc], fun t => ?_⟩
          obtain ⟨u', hu'⟩ := exists_cons_of_append ((List.append_assoc a w _).trans ha.symm) t
          obtain ⟨v', hv'⟩ := exists_cons_of_append hw.symm t
          have hread := ht t ((c :: u').length + 1) (by
            have := congrArg List.length hu'
            simp only [List.length_append, List.length_cons] at this ⊢
            omega)
          rw [List.append_assoc] at hu' ⊢
          have hdrop := hdrop t
          rw [hu'] at hdrop ⊢
          unfold startTagEnd?
          dsimp only
          rw [if_pos hc, hdrop]
          rw [hv'] at hread ⊢
          exact (if_pos hd).trans hread
        · cases h
    · cases h

theorem tagged_endTagEnd? : Tagged endTagEnd? := by
  intro s r h
  unfold endTagEnd? at h
  split at h
  · cases h
  · next c u =>
    split at h
    · next hc =>
      split at h
      · next v hv =>
        cases h
        obtain ⟨g, hg, -, -, hdrop⟩ := cut_of_dropWhile hv
        obtain ⟨a, ha, hname⟩ := cut_before hg
        refine ⟨a ++ g, by rw [ha, List.append_assoc], fun t => ?_⟩
        obtain ⟨u', hu'⟩ := exists_cons_of_append ((List.append_assoc a g _).trans ha.symm) t
        rw [List.append_assoc] at hu' ⊢
        have hname := hname t
        rw [hu'] at hname ⊢
        unfold endTagEnd?
        dsimp only
        rw [if_pos hc, hname, (hdrop t).2]
        rfl
      · cases h
    · cases h

theorem tagged_afterMark? {m mark : Text} (hmark : mark = m ++ ['>']) : Tagged (afterMark? mark) := by
  have hne : mark ≠ [] := by rw [hmark]; simp
  have hwindow := Text.window_isPrefixOf mark hne
  intro s r h
  unfold afterMark? at h
  split at h
  · cases h
  · next c u hu =>
    obtain ⟨v, hv⟩ := List.isPrefixOf_iff_prefix.1
      (Text.holds_of_cutAt (mark.isPrefixOf ·) s (by rw [hu]; exact List.cons_ne_nil c u))
    rw [← hu, ← hv, List.drop_left' rfl] at h
    cases h
    have hs := Text.cutAt_append (mark.isPrefixOf ·) s
    generalize (Text.cutAt (mark.isPrefixOf ·) s).1 = b at hs
    rw [← hv, ← List.append_assoc] at hs
    have hcut := Text.cutAt_of_append hwindow (b ++ mark) r (by
      rw [hs, ← hv, List.length_append]
      omega)
    rw [hs, ← hv] at hcut
    have hcut := List.append_cancel_right hcut
    refine ⟨b ++ m, by rw [← hs, hmark]; simp, fun t => ?_⟩
    have hright := Text.cutAt_append_right hwindow _ t (by rw [← hcut]; exact hne)
    have hsplit : b ++ m ++ '>' :: t = b ++ mark ++ t := by rw [hmark]; simp
    rw [hsplit]
    unfold afterMark?
    rw [hright, ← hcut]
    split
    · next e => exact absurd (List.append_eq_nil_iff.1 e).1 hne
    · next e => rw [← e, List.drop_left' rfl]

theorem tagged_declarationEnd? : Tagged declarationEnd? := by
  intro s r h
  unfold declarationEnd? at h
  split at h
  · next u =>
    obtain ⟨w, hw, ht⟩ := tagged_afterMark? (m := "--".toList) rfl h
    obtain ⟨w, rfl⟩ : ∃ w', w = '-' :: '-' :: w' := by
      match w with
      | [] | [_] => simp at hw
      | a :: b :: w =>
        simp only [List.cons_append, List.cons.injEq] at hw
        exact ⟨w, by rw [← hw.1, ← hw.2.1]⟩
    exact ⟨'-' :: '-' :: w, hw, ht⟩
  · next c u hno =>
    split at h
    · next hdata =>
      obtain ⟨v, hv⟩ := List.isPrefixOf_iff_prefix.1 hdata
      rw [← hv, List.drop_left' rfl] at h
      obtain ⟨w, rfl, ht⟩ := tagged_afterMark? (m := "]]".toList) rfl h
      refine ⟨dataMark ++ w, by rw [← hv, List.append_assoc], fun t => ?_⟩
      rw [List.append_assoc]
      exact ht t
    · split at h
      · next hc =>
        obtain ⟨w, hw, ht⟩ := tagged_afterMark? (m := []) rfl h
        obtain ⟨w, rfl⟩ : ∃ w', w = c :: w' := by
          cases w with
          | nil =>
            rw [(List.cons.inj hw).1] at hc
            exact absurd hc (by decide)
          | cons a w => exact ⟨w, by rw [(List.cons.inj hw).1]⟩
        refine ⟨c :: w, hw, fun t => ?_⟩
        have hdata : ¬dataMark.isPrefixOf (c :: w ++ '>' :: t) = true := by
          intro hp
          obtain ⟨v, hv⟩ := List.isPrefixOf_iff_prefix.1 hp
          rw [← (List.cons.inj hv).1] at hc
          exact absurd hc (by decide)
        unfold declarationEnd?
        split
        · next e =>
          rw [(List.cons.inj e).1] at hc
          exact absurd hc (by decide)
        · next e =>
          rw [if_neg hdata, ← (List.cons.inj e).1, if_pos hc]
          exact ht t
        · next e => cases e
      · cases h
  · cases h

theorem tagged_end? : Tagged end? := by
  intro s r h
  unfold end? at h
  split at h
  · next u =>
    obtain ⟨w, rfl, ht⟩ := tagged_declarationEnd? h
    exact ⟨'!' :: w, rfl, ht⟩
  · next u =>
    obtain ⟨w, rfl, ht⟩ := tagged_afterMark? (m := ['?']) rfl h
    exact ⟨'?' :: w, rfl, ht⟩
  · next u =>
    obtain ⟨w, rfl, ht⟩ := tagged_endTagEnd? h
    exact ⟨'/' :: w, rfl, ht⟩
  · next hdeclaration hinstruction hend =>
    obtain ⟨w, rfl, ht⟩ := tagged_startTagEnd? h
    refine ⟨w, rfl, fun t => ?_⟩
    have hsame : ∀ {c : Char} {v}, w ++ '>' :: t = c :: v → ∃ v', w ++ '>' :: r = c :: v' :=
      fun e => exists_cons_of_append e r
    unfold end?
    split
    · next e =>
      obtain ⟨v, hv⟩ := hsame e
      exact absurd hv (hdeclaration v)
    · next e =>
      obtain ⟨v, hv⟩ := hsame e
      exact absurd hv (hinstruction v)
    · next e =>
      obtain ⟨v, hv⟩ := hsame e
      exact absurd hv (hend v)
    · exact ht t

end RawTag

end MarkdownModule.Markdown

import MarkdownModule.Proofs.Markdown.BreakEnds

/-!
# Definitions before line breaks

Definitions at the start of a text are read alike when line endings behind them get a backslash, if
what is behind them then begins with no definition.

* `Definition.read?_breakEnds`      one definition
* `Definition.readAll_breakEnds`    all of them
-/

namespace MarkdownModule.Markdown

/-! ## what is read from a text with backslashes -/

section
variable {breaks : Nat → Bool} {ends : List Nat}

section
variable {closes stops escaped : Char → Bool}

/-- a character that no backslash is, or a backslash at the end -/
theorem spanTo_single {c : Char} {s : Text} (h : c ≠ '\\' ∨ s = []) :
    spanTo closes stops escaped (c :: s) =
      if closes c then some ([], s)
      else if stops c then none
      else (spanTo closes stops escaped s).map fun t => (c :: t.1, t.2) := by
  rw [spanTo]
  rintro d r rfl rfl
  rcases h with h | h
  · exact h rfl
  · cases h

theorem ne_backslash_or_nil {c : Char} {u : Text} (h : ∀ d r, c = '\\' → u = d :: r → False) :
    c ≠ '\\' ∨ u = [] := by
  cases u with
  | nil => exact .inr rfl
  | cons d r => exact .inl fun e => h d r e rfl

variable (hclose : closes '\n' = false) (hstop : stops '\n' = false)
include hclose hstop

/-- a line ending is taken as it is -/
theorem spanTo_lineEnd {u x r : Text} (h : spanTo closes stops escaped ('\n' :: u) = some (x, r)) :
    ∃ y, spanTo closes stops escaped u = some (y, r) := by
  rw [spanTo_cons (by decide), hclose, hstop] at h
  obtain ⟨t, ht, e⟩ := Option.map_eq_some_iff.1 h
  cases e
  exact ⟨_, ht⟩

variable (hescaped : escaped '\n' = false)
include hescaped

/-- and so is one that may have become a break -/
theorem spanTo_break {u x r : Text}
    (h : spanTo closes stops escaped (breakEnds breaks ends ('\n' :: u)) = some (x, r)) :
    ∃ y, spanTo closes stops escaped (breakEnds breaks ends u) = some (y, r) := by
  rw [breakEnds] at h
  split at h
  · rw [spanTo, hescaped, if_neg Bool.false_ne_true] at h
    obtain ⟨t, ht, e⟩ := Option.map_eq_some_iff.1 h
    cases e
    exact spanTo_lineEnd hclose hstop ht
  · exact spanTo_lineEnd hclose hstop h

omit hclose hstop in
/-- a backslash that stands alone, in front of a character or of its break -/
theorem spanTo_backslash (hbackslash : escaped '\\' = true) {c : Char} (hc : ¬escaped c = true)
    {u x r : Text}
    (h : spanTo closes stops escaped (breakEnds breaks ends ('\\' :: c :: u)) = some (x, r)) :
    ∃ y, spanTo closes stops escaped (breakEnds breaks ends (c :: u)) = some (y, r) := by
  rw [breakEnds_cons (by decide)] at h
  rw [breakEnds] at h ⊢
  split at h
  · next hmark =>
    have hc' : c = '\n' := of_decide_eq_true (Bool.and_eq_true_iff.1 hmark).1
    rw [spanTo, if_pos hbackslash] at h
    obtain ⟨t, ht, e⟩ := Option.map_eq_some_iff.1 h
    cases e
    rw [if_pos hmark, spanTo, if_neg (by rw [hc', hescaped]; decide), ht]
    exact ⟨_, rfl⟩
  · next hmark =>
    rw [spanTo, if_neg hc] at h
    obtain ⟨t, ht, e⟩ := Option.map_eq_some_iff.1 h
    cases e
    rw [if_neg hmark, ht]
    exact ⟨_, rfl⟩

/-- what is closed in a text with backslashes is closed in the text -/
theorem spanTo_of_breakEnds (hbackslash : escaped '\\' = true) {s x r : Text}
    (h : spanTo closes stops escaped (breakEnds breaks ends s) = some (x, r)) :
    ∃ y v, spanTo closes stops escaped s = some (y, v) ∧ r = breakEnds breaks ends v := by
  induction s using spanTo.induct closes stops escaped generalizing x r with
  | case1 => cases h
  | case2 c u hc ih =>
    have hc' : c ≠ '\n' := fun e => by rw [e, hescaped] at hc; cases hc
    rw [breakEnds_cons (by decide), breakEnds_cons hc', spanTo, if_pos hc] at h
    obtain ⟨t, ht, e⟩ := Option.map_eq_some_iff.1 h
    cases e
    obtain ⟨y, v, hy, hr⟩ := ih ht
    exact ⟨_, v, by rw [spanTo, if_pos hc, hy]; rfl, hr⟩
  | case3 c u hc ih =>
    obtain ⟨x, hx⟩ := spanTo_backslash hescaped hbackslash hc h
    obtain ⟨y, v, hy, hr⟩ := ih hx
    exact ⟨_, v, by rw [spanTo, if_neg hc, hy]; rfl, hr⟩
  | case4 c u h1 hc =>
    have hc' : c ≠ '\n' := fun e => by rw [e, hclose] at hc; cases hc
    have hu := ne_backslash_or_nil h1
    rw [breakEnds_cons hc', spanTo_single (hu.imp_right fun e => by rw [e, breakEnds]), if_pos hc] at h
    cases h
    exact ⟨_, _, by rw [spanTo_single hu, if_pos hc], rfl⟩
  | case5 c u h1 hc hs =>
    have hc' : c ≠ '\n' := fun e => by rw [e, hstop] at hs; cases hs
    have hu := ne_backslash_or_nil h1
    rw [breakEnds_cons hc', spanTo_single (hu.imp_right fun e => by rw [e, breakEnds]),
      if_neg hc, if_pos hs] at h
    cases h
  | case6 c u h1 hc hs ih =>
    have hu := ne_backslash_or_nil h1
    suffices hread : ∃ x, spanTo closes stops escaped (breakEnds breaks ends u) = some (x, r) by
      obtain ⟨x, hx⟩ := hread
      obtain ⟨y, v, hy, hr⟩ := ih hx
      exact ⟨_, v, by rw [spanTo_single hu, if_neg hc, if_neg hs, hy]; rfl, hr⟩
    by_cases hc' : c = '\n'
    · rw [hc'] at h
      exact spanTo_break hclose hstop hescaped h
    · rw [breakEnds_cons hc', spanTo_single (hu.imp_right fun e => by rw [e, breakEnds]),
        if_neg hc, if_neg hs] at h
      obtain ⟨t, ht, e⟩ := Option.map_eq_some_iff.1 h
      cases e
      exact ⟨_, ht⟩

end

theorem readTitle?_of_breakEnds {s x r : Text}
    (h : readTitle? (breakEnds breaks ends s) = some (x, r)) :
    ∃ y v, readTitle? s = some (y, v) ∧ r = breakEnds breaks ends v := by
  have hspan : ∀ {close : Char} {u : Text}, close ≠ '\n' →
      titleSpan? close (breakEnds breaks ends u) = some (x, r) →
      ∃ y v, titleSpan? close u = some (y, v) ∧ r = breakEnds breaks ends v := by
    intro close u hclose h
    simp only [titleSpan?_eq] at h ⊢
    exact spanTo_of_breakEnds (decide_eq_false hclose.symm) rfl (by decide) (by decide) h
  have hopen : ∀ {c : Char} {u : Text}, c ≠ '\\' → c ≠ '\n' → breakEnds breaks ends s = c :: u →
      ∃ v, s = c :: v ∧ u = breakEnds breaks ends v := by
    intro c u hc hc' hs
    obtain ⟨v, rfl⟩ := List.head?_eq_some_iff.1 (head?_breakEnds_eq_some hc s (by rw [hs]; rfl))
    rw [breakEnds_cons hc'] at hs
    exact ⟨v, rfl, (List.cons.inj hs).2.symm⟩
  unfold readTitle? at h
  split at h
  · next u hs =>
    obtain ⟨v, rfl, rfl⟩ := hopen (by decide) (by decide) hs
    exact hspan (by decide) h
  · next u hs =>
    obtain ⟨v, rfl, rfl⟩ := hopen (by decide) (by decide) hs
    exact hspan (by decide) h
  · next u hs =>
    obtain ⟨v, rfl, rfl⟩ := hopen (by decide) (by decide) hs
    exact hspan (by decide) h
  · cases h

variable (breaks ends) in
/-- blanks and line endings before a text with backslashes -/
theorem dropWhile_isWide_breakEnds (s : Text) :
    ((breakEnds breaks ends s).dropWhile isWide).head? = some '\\' ∨
      (breakEnds breaks ends s).dropWhile isWide = breakEnds breaks ends (s.dropWhile isWide) := by
  induction s with
  | nil => exact .inr rfl
  | cons c r ih =>
    by_cases hc : c = '\n'
    · subst hc
      rw [breakEnds]
      split
      · exact .inl rfl
      · exact ih
    · rw [breakEnds_cons hc, List.dropWhile_cons, List.dropWhile_cons]
      split
      · exact ih
      · exact .inr (breakEnds_cons hc r).symm

end

/-! ## destinations in definitions -/

/-- a definition may have any number of parentheses open -/
theorem plainSpan?_most {m m' depth : Nat} {s : Text} (h : depth + s.length ≤ m)
    (h' : depth + s.length ≤ m') : plainSpan? m depth s = plainSpan? m' depth s := by
  induction depth, s using plainSpan?.induct m with
  | case1 => rfl
  | case2 depth hd => rfl
  | case3 depth c r hc ih =>
    simp only [List.length_cons] at h h'
    rw [plainSpan?, plainSpan?, if_pos hc, if_pos hc, ih (by omega) (by omega)]
  | case4 depth c r hc ih =>
    simp only [List.length_cons] at h h' ih
    rw [plainSpan?, plainSpan?, if_neg hc, if_neg hc, ih (by omega) (by omega)]
  | case5 depth c r h1 hc =>
    rw [plainSpan?, plainSpan?, if_pos hc, if_pos hc]
    · exact h1
    · exact h1
  | case6 depth r hdepth h1 hc ih =>
    simp only [List.length_cons] at h h'
    rw [plainSpan?_cons (by decide), plainSpan?_cons (by decide), if_neg hc, if_neg hc, if_pos rfl,
      if_pos rfl, if_pos hdepth, if_pos (by omega), ih (by omega) (by omega)]
  | case7 depth r hdepth h1 hc =>
    simp only [List.length_cons] at h
    omega
  | case8 depth r h1 hc h2 ih =>
    simp only [List.length_cons] at h h'
    rw [plainSpan?_cons (by decide), plainSpan?_cons (by decide), if_neg hc, if_neg hc,
      if_neg h2, if_neg h2, if_pos rfl, if_pos rfl, ih (by omega) (by omega)]
  | case9 depth c r h1 hc h2 h3 hstop =>
    rw [plainSpan?, plainSpan?, if_neg hc, if_neg hc, if_neg h2, if_neg h2, if_neg h3, if_neg h3,
      if_pos hstop, if_pos hstop]
    · exact h1
    · exact h1
  | case10 depth c r h1 hc h2 h3 hstop ih =>
    simp only [List.length_cons] at h h'
    rw [plainSpan?, plainSpan?, if_neg hc, if_neg hc, if_neg h2, if_neg h2, if_neg h3, if_neg h3,
      if_neg hstop, if_neg hstop, ih (by omega) (by omega)]
    · exact h1
    · exact h1

theorem readDestination?_most {m m' : Nat} {s : Text} (h : s.length ≤ m) (h' : s.length ≤ m') :
    readDestination? m s = readDestination? m' s := by
  unfold readDestination?
  split
  · rfl
  · rfl
  · next c r _ =>
    have e : plainSpan? m 0 (c :: r) = plainSpan? m' 0 (c :: r) :=
      plainSpan?_most (by omega) (by omega)
    rw [e]

namespace Definition

variable {breaks : Nat → Bool} {ends : List Nat}

/-! ## what is left of a text -/

theorem endLine?_suffix {s r : Text} (h : endLine? s = some r) : r <:+ s := by
  have hdrop := List.dropWhile_suffix isGap (l := s)
  unfold endLine? at h
  split at h
  · cases h
    exact List.nil_suffix
  · next r' hr =>
    cases h
    rw [hr] at hdrop
    exact (List.suffix_cons _ _).trans hdrop
  · cases h

theorem endTitle?_suffix {s x r : Text} (h : endTitle? s = some (x, r)) : r <:+ s := by
  unfold endTitle? at h
  dsimp only at h
  split at h
  · obtain ⟨⟨title, t⟩, htitle, h⟩ := Option.bind_eq_some_iff.1 h
    obtain ⟨rest, hrest, h⟩ := Option.bind_eq_some_iff.1 h
    cases h
    obtain ⟨w, hw, -⟩ := whole_readTitle? htitle
    exact ((endLine?_suffix hrest).trans ⟨w, hw.symm⟩).trans (List.dropWhile_suffix _)
  · cases h

/-- a definition takes a bracket at least -/
theorem read?_after {s r : Text} {d : Definition} (h : read? s = some (d, r)) :
    ∃ t, '[' :: t <:+ s ∧ r <:+ t := by
  unfold read? at h
  split at h
  · next t ht =>
    refine ⟨t, ht ▸ List.dropWhile_suffix isGap, ?_⟩
    obtain ⟨⟨label, u⟩, hlabel, h⟩ := Option.bind_eq_some_iff.1 h
    obtain ⟨w, hw, -⟩ := Label.whole_read? hlabel
    dsimp only at h
    split at h
    · next u =>
      obtain ⟨⟨destination, v⟩, hdestination, h⟩ := Option.bind_eq_some_iff.1 h
      obtain ⟨y, hy, -⟩ := readDestination?_eq_some hdestination
      have hv : v <:+ t := by
        have hu : v <:+ u := (show v <:+ _ from ⟨y, hy.symm⟩).trans (List.dropWhile_suffix _)
        exact (hu.trans (List.suffix_cons ':' u)).trans ⟨w, hw.symm⟩
      dsimp only at h
      split at h
      · next title rest htitle =>
        cases h
        exact (endTitle?_suffix htitle).trans hv
      · obtain ⟨rest, hrest, h⟩ := Option.bind_eq_some_iff.1 h
        cases h
        exact (endLine?_suffix hrest).trans hv
    · cases h
  · cases h

theorem read?_suffix {s r : Text} {d : Definition} (h : read? s = some (d, r)) : r <:+ s := by
  obtain ⟨t, ht, hr⟩ := read?_after h
  exact (hr.trans (List.suffix_cons '[' t)).trans ht

theorem read?_length {s r : Text} {d : Definition} (h : read? s = some (d, r)) :
    r.length < s.length := by
  obtain ⟨t, ht, hr⟩ := read?_after h
  exact Nat.lt_of_lt_of_le (Nat.lt_succ_of_le hr.length_le) ht.length_le

theorem readSome_suffix (n : Nat) (s : Text) : (readSome n s).2 <:+ s := by
  induction n generalizing s with
  | zero => exact List.suffix_rfl
  | succ n ih =>
    rw [readSome]
    split
    · next d rest h => exact (ih rest).trans (read?_suffix h)
    · exact List.suffix_rfl

/-- no definition is left -/
theorem readAll_done (s : Text) : read? (readAll s).2 = none := by
  suffices hsome : ∀ (n : Nat) (s : Text), s.length ≤ n → read? (readSome n s).2 = none from
    hsome _ s (Nat.le_refl _)
  intro n
  induction n with
  | zero =>
    intro s hs
    rw [List.eq_nil_of_length_eq_zero (Nat.le_zero.1 hs)]
    rfl
  | succ n ih =>
    intro s hs
    rw [readSome]
    split
    · next d rest h =>
      have hlt := read?_length h
      exact ih rest (by omega)
    · next h => exact h

/-! ## one definition -/

theorem endLine?_eq_some {s r : Text} (h : endLine? s = some r) :
    r = [] ∨ ∃ w, (∀ c ∈ w, isGap c = true) ∧ s = w ++ '\n' :: r := by
  unfold endLine? at h
  split at h
  · cases h
    exact .inl rfl
  · next u hu =>
    cases h
    obtain ⟨w, rfl, -, hw, -⟩ := cut_of_dropWhile hu
    exact .inr ⟨w, hw, rfl⟩
  · cases h

theorem endLine?_append {w : Text} (hw : ∀ c ∈ w, isGap c = true) (r : Text) :
    endLine? (w ++ '\n' :: r) = some r := by
  unfold endLine?
  rw [(Text.span_cons_of_forall hw (by decide) r).2]
  rfl

theorem endLine?_of_breakEnds {s r : Text} (h : endLine? (breakEnds breaks ends s) = some r) :
    ∃ v, endLine? s = some v := by
  unfold endLine? at h ⊢
  have hdrop := (span_breakEnds breaks ends (p := isGap) (by decide) (by decide) s).2
  rw [hdrop] at h
  cases hs : s.dropWhile isGap with
  | nil => exact ⟨[], rfl⟩
  | cons c u =>
    by_cases hc : c = '\n'
    · exact ⟨u, by rw [hc]; rfl⟩
    · rw [hs, breakEnds_cons hc] at h
      split at h
      · next e => cases e
      · next e => exact absurd (List.cons.inj e).1 hc
      · cases h

/-- a title that would begin behind a definition -/
theorem endTitle?_breakEnds {w r : Text} (hw : ∀ c ∈ w, isGap c = true)
    (h : endTitle? (w ++ '\n' :: r) = none) :
    endTitle? (w ++ '\n' :: breakEnds breaks ends r) = none := by
  have hwide : ∀ c ∈ w ++ ['\n'], isWide c = true := by
    intro c hc
    rcases List.mem_append.1 hc with hc | hc
    · rw [isWide, hw c hc]
      rfl
    · rw [List.mem_singleton.1 hc]
      rfl
  have hdrop : ∀ r : Text, (w ++ '\n' :: r).dropWhile isWide = r.dropWhile isWide := by
    intro r
    rw [List.append_cons]
    exact List.dropWhile_append_of_pos hwide
  have hlength : ∀ r : Text, (r.dropWhile isWide).length < (w ++ '\n' :: r).length := by
    intro r
    have hle := (List.dropWhile_suffix isWide (l := r)).length_le
    rw [List.length_append, List.length_cons]
    omega
  unfold endTitle? at h ⊢
  simp only [hdrop, hlength, if_true] at h ⊢
  rcases dropWhile_isWide_breakEnds breaks ends r with hhead | heq
  · obtain ⟨v, hv⟩ := List.head?_eq_some_iff.1 hhead
    rw [hv]
    rfl
  · rw [heq]
    by_contra hne
    obtain ⟨x, hx⟩ := Option.ne_none_iff_exists'.1 hne
    obtain ⟨⟨title, q⟩, htitle, hx⟩ := Option.bind_eq_some_iff.1 hx
    obtain ⟨z, hz, -⟩ := Option.bind_eq_some_iff.1 hx
    obtain ⟨y, v, hread, rfl⟩ := readTitle?_of_breakEnds htitle
    obtain ⟨z, hz⟩ := endLine?_of_breakEnds hz
    rw [hread, Option.bind_eq_bind, Option.bind_some] at h
    dsimp only at h
    rw [hz] at h
    cases h

/-- a title is found again before any text behind its line -/
theorem endTitle?_eq_some {s x r : Text} (h : endTitle? s = some (x, r)) (hr : r ≠ []) :
    ∃ w, w ≠ [] ∧ s = w ++ r ∧ ∀ t, endTitle? (w ++ t) = some (x, t) := by
  unfold endTitle? at h
  dsimp only at h
  split at h
  · next hlength =>
    obtain ⟨⟨title, q⟩, htitle, h⟩ := Option.bind_eq_some_iff.1 h
    obtain ⟨z, hline, h⟩ := Option.bind_eq_some_iff.1 h
    cases h
    obtain ⟨y, hy, hread⟩ := whole_readTitle? htitle
    obtain ⟨c, y, rfl⟩ := List.exists_cons_of_ne_nil (Whole.ne_nil rfl hread)
    obtain ⟨g, rfl, -, -, hg⟩ := cut_of_dropWhile hy
    obtain ⟨v, hv, rfl⟩ := (endLine?_eq_some hline).resolve_left hr
    refine ⟨g ++ c :: y ++ v ++ ['\n'], by simp, by simp, fun t => ?_⟩
    have hdrop := (hg (y ++ v ++ '\n' :: t)).2
    have htext : g ++ c :: y ++ v ++ ['\n'] ++ t = g ++ c :: (y ++ v ++ '\n' :: t) := by simp
    rw [hy] at hlength
    rw [htext]
    unfold endTitle?
    have hlength : (c :: (y ++ v ++ '\n' :: t)).length < (g ++ c :: (y ++ v ++ '\n' :: t)).length := by
      simp only [List.append_eq, List.length_append, List.length_cons] at hlength ⊢
      omega
    rw [hdrop]
    dsimp only
    rw [if_pos hlength]
    have hread := hread (v ++ '\n' :: t)
    rw [List.cons_append, ← List.append_assoc] at hread
    rw [hread, Option.bind_eq_bind, Option.bind_some]
    dsimp only
    rw [endLine?_append hv, Option.bind_eq_bind, Option.bind_some]
  · cases h

theorem readDestination?_again {s x r : Text}
    (h : readDestination? s.length (s.dropWhile isWide) = some (x, r)) :
    ∃ w, s = w ++ r ∧ ∀ t : Text, t.head? = r.head? →
      readDestination? (w ++ t).length ((w ++ t).dropWhile isWide) = some (x, t) := by
  obtain ⟨y, hy, ⟨c, y', rfl, -, -⟩, -⟩ := readDestination?_eq_some h
  obtain ⟨g, hg, -, -, hgap⟩ := cut_of_dropWhile hy
  refine ⟨g ++ c :: y', by rw [hg]; simp, fun t ht => ?_⟩
  have hmost : ∀ {u : Text} {m : Nat}, u.length ≤ m →
      readDestination? u.length (u.dropWhile isWide) = readDestination? m (u.dropWhile isWide) :=
    fun hm =>
      have hle := (List.dropWhile_suffix isWide).length_le
      readDestination?_most hle (Nat.le_trans hle hm)
  rw [hmost (Nat.le_max_left _ (g ++ c :: y' ++ t).length), hy] at h
  obtain ⟨d, hd, -, hagain⟩ := readDestination?_eq_some h
  have hd : d = c :: y' := (List.append_left_inj r).1 hd.symm
  have htext : g ++ c :: y' ++ t = g ++ c :: (y' ++ t) := by simp
  have hagain := hagain t ht
  rw [hd] at hagain
  rw [hmost (Nat.le_max_right s.length _), htext, (hgap _).2, ← htext]
  exact hagain

/-- what follows the destination of a definition: perhaps a title, and the end of the line -/
def finish? (label destination s : Text) : Option (Definition × Text) :=
  match endTitle? s with
  | some (title, rest) =>
    some (⟨Label.normal label, ⟨decode destination, titleOf title⟩⟩, rest)
  | none =>
    (endLine? s).map fun rest => (⟨Label.normal label, ⟨decode destination, none⟩⟩, rest)

theorem read?_eq {s t u v label destination : Text} (hs : s.dropWhile isGap = '[' :: t)
    (hlabel : Label.read? t = some (label, ':' :: u))
    (hdestination : readDestination? u.length (u.dropWhile isWide) = some (destination, v)) :
    read? s = finish? label destination v := by
  unfold read? finish?
  rw [hs]
  simp only [hlabel, Option.bind_eq_bind, Option.bind_some, hdestination]
  cases endTitle? v with
  | some t => rfl
  | none => cases endLine? v <;> rfl

theorem finish?_again {label destination s r : Text} {d : Definition}
    (h : finish? label destination s = some (d, r)) (hr : r ≠ []) :
    ∃ w, w ≠ [] ∧ s = w ++ r ∧ ∀ t : Text, (∀ g, (∀ c ∈ g, isGap c = true) →
      endTitle? (g ++ '\n' :: r) = none → endTitle? (g ++ '\n' :: t) = none) →
      finish? label destination (w ++ t) = some (d, t) := by
  unfold finish? at h
  split at h
  · next title rest htitle =>
    cases h
    obtain ⟨w, hw, hs, htitle⟩ := endTitle?_eq_some htitle hr
    exact ⟨w, hw, hs, fun t _ => by rw [finish?, htitle]⟩
  · next hno =>
    obtain ⟨rest, hrest, e⟩ := Option.map_eq_some_iff.1 h
    cases e
    obtain ⟨w, hw, rfl⟩ := (endLine?_eq_some hrest).resolve_left hr
    refine ⟨w ++ ['\n'], by simp, by simp, fun t ht => ?_⟩
    rw [List.append_assoc, List.singleton_append, finish?, ht w hw hno, endLine?_append hw]
    rfl

/-- a definition is found again before any text that begins with no title for it -/
theorem read?_again {s r : Text} {d : Definition} (h : read? s = some (d, r)) (hr : r ≠ []) :
    ∃ w, s = w ++ r ∧ ∀ t : Text, (∀ g, (∀ c ∈ g, isGap c = true) →
      endTitle? (g ++ '\n' :: r) = none → endTitle? (g ++ '\n' :: t) = none) →
      read? (w ++ t) = some (d, t) := by
  have hparts : ∃ s' label u destination v, s.dropWhile isGap = '[' :: s' ∧
      Label.read? s' = some (label, ':' :: u) ∧
      readDestination? u.length (u.dropWhile isWide) = some (destination, v) := by
    unfold read? at h
    split at h
    · next s' hs' =>
      obtain ⟨⟨label, u⟩, hlabel, h⟩ := Option.bind_eq_some_iff.1 h
      dsimp only at h
      split at h
      · next u =>
        obtain ⟨⟨destination, v⟩, hdestination, -⟩ := Option.bind_eq_some_iff.1 h
        exact ⟨s', label, u, destination, v, hs', hlabel, hdestination⟩
      · cases h
    · cases h
  obtain ⟨s', label, u, destination, v, hs', hlabel, hdestination⟩ := hparts
  rw [read?_eq hs' hlabel hdestination] at h
  obtain ⟨g, hg, -, -, hgap⟩ := cut_of_dropWhile hs'
  obtain ⟨y, hy, hread⟩ := Label.whole_read? hlabel
  obtain ⟨z, hz, hfound⟩ := readDestination?_again hdestination
  obtain ⟨w, hw, hv, hend⟩ := finish?_again h hr
  refine ⟨g ++ '[' :: (y ++ ':' :: (z ++ w)), by simp [hg, hy, hz, hv], fun t ht => ?_⟩
  have htext : g ++ '[' :: (y ++ ':' :: (z ++ w)) ++ t = g ++ '[' :: (y ++ ':' :: (z ++ (w ++ t))) := by
    simp
  have hhead : (w ++ t).head? = v.head? := hv ▸ head?_append_of_ne_nil hw t r
  rw [htext, read?_eq (hgap _).2 (hread _) (hfound _ hhead)]
  exact hend t ht

/-! ## all definitions -/

theorem hard_append_iff {w v r : Text} : Hard breaks ends (w ++ v) r ↔
    Hard breaks ends w (v ++ r) ∧ Hard breaks ends v r := by
  have hdrop : (ends.drop (r.count '\n')).drop (v.count '\n') =
      ends.drop ((v ++ r).count '\n') := by
    rw [List.drop_drop, List.count_append, Nat.add_comm]
  unfold Hard
  rw [breakEnds_append, hdrop]
  constructor
  · intro h
    have hw := length_le_breakEnds breaks (ends.drop ((v ++ r).count '\n')) w
    have hv := length_le_breakEnds breaks (ends.drop (r.count '\n')) v
    have hlength := congrArg List.length h
    rw [List.length_append, List.length_append] at hlength
    exact List.append_inj h (by omega)
  · rintro ⟨hw, hv⟩
    rw [hw, hv]

theorem readSome_breakEnds {n m : Nat} (hm : n ≤ m) {s rest : Text} {ds : List Definition}
    (h : readSome n s = (ds, rest)) (hhard : ∀ w, s = w ++ rest → Hard breaks ends w rest)
    (hrest : read? (breakEnds breaks ends rest) = none) :
    readSome m (breakEnds breaks ends s) = (ds, breakEnds breaks ends rest) := by
  have hstop : ∀ m, readSome m (breakEnds breaks ends rest) = ([], breakEnds breaks ends rest) := by
    intro m
    cases m with
    | zero => rfl
    | succ m => rw [readSome, hrest]
  induction n generalizing m s ds with
  | zero =>
    cases h
    exact hstop m
  | succ n ih =>
    rw [readSome] at h
    cases hread : read? s with
    | none =>
      rw [hread] at h
      cases h
      exact hstop m
    | some t =>
      obtain ⟨d, r⟩ := t
      rw [hread] at h
      obtain ⟨m, rfl⟩ : ∃ k, m = k + 1 := ⟨m - 1, by omega⟩
      obtain ⟨hds, hr⟩ := Prod.mk.inj h
      obtain ⟨v, hv⟩ : rest <:+ r := hr ▸ readSome_suffix n r
      suffices hagain : read? (breakEnds breaks ends s) = some (d, breakEnds breaks ends r) ∧
          Hard breaks ends v rest by
        rw [readSome, hagain.1]
        dsimp only
        rw [ih (by omega) (Prod.ext rfl hr) fun w hw => by
          rw [List.append_cancel_right (hw.symm.trans hv.symm)]
          exact hagain.2, ← hds]
      by_cases hnil : r = []
      · rw [hnil] at hv
        obtain ⟨rfl, rfl⟩ := List.append_eq_nil_iff.1 hv
        have hs : breakEnds breaks ends s = s := hhard s (List.append_nil s).symm
        rw [hs, hread, hnil, breakEnds]
        exact ⟨rfl, rfl⟩
      · obtain ⟨w, hw, hagain⟩ := read?_again hread hnil
        obtain ⟨hw', hv'⟩ := hard_append_iff.1 (hhard (w ++ v) (by rw [hw, ← hv, List.append_assoc]))
        rw [hv] at hw'
        refine ⟨?_, hv'⟩
        rw [hw, hw'.append]
        exact hagain _ fun g hg => endTitle?_breakEnds hg

/-- **Definitions are read alike with backslashes behind them**, if no other definition begins there
then. -/
theorem readAll_breakEnds {s : Text}
    (hhard : ∀ w, s = w ++ (readAll s).2 → Hard breaks ends w (readAll s).2)
    (hrest : read? (breakEnds breaks ends (readAll s).2) = none) :
    readAll (breakEnds breaks ends s) = ((readAll s).1, breakEnds breaks ends (readAll s).2) :=
  readSome_breakEnds (length_le_breakEnds breaks ends s) rfl hhard hrest

end Definition

end MarkdownModule.Markdown

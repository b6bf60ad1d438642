import MarkdownModule.Proofs.Markdown.Marked.Line

/-!
# Containers of lines with backslashes

A backslash at the end of a line belongs to no mark of a container, as long as something follows the
mark.

* `Container.open?_alike`       the containers that a line opens with its backslash and without
* `Container.continue?_alike`   those that it goes on with
* `Container.open?_length`      the mark of a container is not empty
-/

namespace MarkdownModule.Markdown

/-! ## containers -/

namespace Container

variable {breaks : Nat → Bool} {l l' : Line}

open Line (Alike mark mark_cases)

/-- the same container, and lines that are alike behind its mark -/
def RestsAlike (breaks : Nat → Bool) : Option (Container × Line) → Option (Container × Line) → Prop :=
  Option.Rel fun t t' => t'.1 = t.1 ∧ Alike breaks t.2 t'.2

theorem afterQuoteMark?_eq (l : Line) : afterQuoteMark? l =
    if l.inner.head? = some '>' ∧ l.indent ≤ mostIndent then
      some (l.skipAll.drop 1).skipColumn
    else none := by
  unfold afterQuoteMark?
  split
  · next r hr =>
    rw [hr]
    by_cases hindent : mostIndent < l.indent
    · rw [if_pos hindent, if_neg fun h => absurd h.2 (Nat.not_le.2 hindent)]
    · rw [if_neg hindent, if_pos ⟨rfl, Nat.not_lt.1 hindent⟩]
  · next hno =>
    rw [if_neg]
    rintro ⟨h, -⟩
    obtain ⟨r, hr⟩ := List.head?_eq_some_iff.1 h
    exact hno r hr

theorem afterQuoteMark?_alike (h : Alike breaks l l') :
    Option.Rel (Alike breaks) (afterQuoteMark? l) (afterQuoteMark? l') := by
  rw [afterQuoteMark?_eq, afterQuoteMark?_eq, h.inner, h.indent]
  by_cases hquote : l.inner.head? = some '>' ∧ l.indent ≤ mostIndent
  · rw [if_pos hquote, if_pos (hquote.imp_left (Line.head?_mark (by decide) _).2)]
    refine .some (h.skipAll.drop ?_).skipColumn
    obtain ⟨r, hr⟩ := List.head?_eq_some_iff.1 hquote.1
    rw [l.rest_skipAll.2, hr]
    exact Nat.le_add_left 1 _
  · rw [if_neg hquote, if_neg fun e => hquote (e.imp_left (Line.head?_mark (by decide) _).1)]
    exact .none

/-! ### items -/

theorem isRuleText_mark {s : Text} (hb : breaks l.stop = true) :
    isRuleText (s ++ mark breaks l.stop) = false := by
  rw [mark, hb, if_pos rfl]
  cases s with
  | nil => rfl
  | cons c s =>
    rw [List.cons_append, isRuleText, Bool.and_eq_false_iff, Bool.and_eq_false_iff]
    by_cases hc : c = '\\'
    · subst hc
      exact .inl (.inl rfl)
    · refine .inl (.inr ?_)
      rw [Bool.eq_false_iff]
      intro hall
      have := List.all_eq_true.1 hall '\\' (by simp)
      simp [Ne.symm hc, isGap] at this

theorem readMarker?_mark {interrupts : Bool} {s : Text}
    (hrule : breaks l.stop = true → isRuleText s = false) :
    readMarker? interrupts (s ++ mark breaks l.stop) = readMarker? interrupts s := by
  rcases mark_cases breaks l.stop with ⟨hm, -⟩ | ⟨hm, hb⟩
  · rw [hm, List.append_nil]
  have hrule' := isRuleText_mark (s := s) hb
  have hdigits := Line.span_mark breaks l.stop (p := Char.isDigit) (by decide) s
  rw [hm] at hrule' hdigits ⊢
  cases s with
  | nil => rfl
  | cons c s =>
    rw [List.cons_append] at hrule' hdigits ⊢
    unfold readMarker?
    dsimp only
    rw [hrule', hrule hb, drop_length_takeWhile, drop_length_takeWhile, hdigits.1, hdigits.2]
    split
    · rfl
    · cases (c :: s).dropWhile Char.isDigit with
      | nil => rfl
      | cons d r => rfl

theorem readMarker?_size {interrupts : Bool} {s : Text} {marker : Char} {number size : Nat}
    (h : readMarker? interrupts s = some (marker, number, size)) : size ≤ s.length := by
  unfold readMarker? at h
  split at h
  · cases h
  · next c r =>
    dsimp only at h
    split at h
    · cases h
      exact Nat.le_add_left 1 _
    · split at h
      · cases h
      · next d hd =>
        split at h
        · cases h
          have hlt : ((c :: r).takeWhile Char.isDigit).length < (c :: r).length := by
            by_contra hle
            rw [List.drop_eq_nil_of_le (Nat.not_lt.1 hle)] at hd
            cases hd
          exact hlt
        · cases h

/-- the item that a line opens with a marker of so many characters -/
def itemBehind? (interrupts : Bool) (marker : Char) (number size : Nat) (l : Line) :
    Option (Container × Line) :=
  let after := l.skipAll.drop size
  if mostIndent < l.indent then none
  else if after.isBlank then
    if interrupts then none else some (.item marker number (l.indent + size + 1) true, after)
  else if after.indent = 0 then none
  else if after.indent ≤ 4 then
    some (.item marker number (l.indent + size + after.indent) false, after.skip after.indent)
  else some (.item marker number (l.indent + size + 1) false, after.skip 1)

theorem openItem?_eq (interrupts : Bool) (l : Line) : openItem? interrupts l =
    (readMarker? interrupts l.inner).bind fun t => itemBehind? interrupts t.1 t.2.1 t.2.2 l := rfl

theorem itemBehind?_alike {interrupts : Bool} {marker : Char} {number size : Nat}
    (h : Alike breaks l l') (hsize : size ≤ l.inner.length)
    (hblank : ∀ c t, itemBehind? interrupts marker number size l = some (c, t) →
      breaks l.stop = true → t.isBlank = false) :
    RestsAlike breaks (itemBehind? interrupts marker number size l)
      (itemBehind? interrupts marker number size l') := by
  have hafter : Alike breaks (l.skipAll.drop size) (l'.skipAll.drop size) :=
    h.skipAll.drop (by rw [l.rest_skipAll.2]; exact hsize)
  have hstop : (l.skipAll.drop size).stop = l.stop := ((Line.drop_tail _ _).trans l.skipAll_tail).2
  have hspare : (l.skipAll.drop size).spare = 0 := l.rest_skipAll.1
  unfold itemBehind? at hblank ⊢
  dsimp only at hblank ⊢
  rw [h.indent, hafter.indent]
  generalize l.skipAll.drop size = after at hafter hstop hspare hblank ⊢
  generalize l'.skipAll.drop size = after' at hafter ⊢
  split
  · exact .none
  · next hindent =>
    rw [if_neg hindent] at hblank
    by_cases hb : breaks l.stop = true ∧ after.isBlank = true
    · rw [if_pos hb.2] at hblank ⊢
      cases interrupts with
      | false =>
        have := hblank _ _ rfl hb.1
        rw [hb.2] at this
        cases this
      | true =>
        have hbreak : breaks after.stop = true := hstop ▸ hb.1
        have hrest := Line.rest_of_isBlank (hafter.clean hbreak) hb.2
        have hzero : after.indent = 0 := by rw [Line.indent, hspare, hrest, Line.gapWidth]
        have hmarked : ¬ after'.isBlank = true := by
          rw [hafter.not_blank hbreak]
          exact Bool.false_ne_true
        rw [if_pos rfl, if_neg hmarked, if_pos hzero]
        exact .none
    · have hsame : after'.isBlank = after.isBlank :=
        hafter.isBlank fun e => eq_false_of_ne_true fun e' => hb ⟨hstop ▸ e, e'⟩
      rw [hsame]
      split
      · split
        · exact .none
        · exact .some ⟨rfl, hafter⟩
      · split
        · exact .none
        · split
          · exact .some ⟨rfl, hafter.skip _⟩
          · exact .some ⟨rfl, hafter.skip 1⟩

theorem openItem?_alike {interrupts : Bool} (h : Alike breaks l l')
    (hrule : breaks l.stop = true → isRule l = false)
    (hblank : ∀ c t, openItem? interrupts l = some (c, t) → breaks l.stop = true →
      t.isBlank = false) :
    RestsAlike breaks (openItem? interrupts l) (openItem? interrupts l') := by
  rw [openItem?_eq, openItem?_eq]
  by_cases hindent : mostIndent < l.indent
  · have hnone : ∀ {m : Line} {r : Option (Char × Nat × Nat)}, mostIndent < m.indent →
        (r.bind fun t => itemBehind? interrupts t.1 t.2.1 t.2.2 m) = none := by
      intro m r hm
      exact Option.bind_eq_none_iff.2 fun t _ => if_pos hm
    rw [hnone hindent, hnone (h.indent ▸ hindent)]
    exact .none
  · rw [h.inner, readMarker?_mark fun hb => by
      have := hrule hb
      rwa [isRule, decide_eq_true (Nat.not_lt.1 hindent), Bool.true_and] at this]
    cases hread : readMarker? interrupts l.inner with
    | none => exact .none
    | some t =>
      refine itemBehind?_alike h (readMarker?_size hread) fun c u hu => hblank c u ?_
      rw [openItem?_eq, hread]
      exact hu

/-! ### footnotes -/

theorem spanTo_close {closes stops escaped : Char → Bool} {s x r : Text}
    (h : spanTo closes stops escaped s = some (x, r)) : ∃ c, closes c = true ∧ s = x ++ c :: r := by
  induction s using spanTo.induct closes stops escaped generalizing x r with
  | case1 => cases h
  | case2 c u hc ih =>
    rw [spanTo, if_pos hc] at h
    obtain ⟨t, ht, e⟩ := Option.map_eq_some_iff.1 h
    cases e
    obtain ⟨d, hd, hu⟩ := ih ht
    exact ⟨d, hd, by rw [hu]; rfl⟩
  | case3 c u hc ih =>
    rw [spanTo, if_neg hc] at h
    obtain ⟨t, ht, e⟩ := Option.map_eq_some_iff.1 h
    cases e
    obtain ⟨d, hd, hu⟩ := ih ht
    exact ⟨d, hd, by rw [hu]; rfl⟩
  | case4 c u h1 hc =>
    rw [spanTo, if_pos hc] at h
    · cases h
      exact ⟨c, hc, rfl⟩
    · exact h1
  | case5 c u h1 hc hs =>
    rw [spanTo, if_neg hc, if_pos hs] at h
    · cases h
    · exact h1
  | case6 c u h1 hc hs ih =>
    rw [spanTo, if_neg hc, if_neg hs] at h
    · obtain ⟨t, ht, e⟩ := Option.map_eq_some_iff.1 h
      cases e
      obtain ⟨d, hd, hu⟩ := ih ht
      exact ⟨d, hd, by rw [hu]; rfl⟩
    · exact h1

/-- a backslash at the end closes nothing -/
theorem spanTo_mark {closes stops escaped : Char → Bool} (hclose : closes '\\' = false)
    {place : Nat} (s : Text) : spanTo closes stops escaped (s ++ mark breaks place) =
      (spanTo closes stops escaped s).map fun t => (t.1, t.2 ++ mark breaks place) := by
  cases hs : spanTo closes stops escaped s with
  | some t =>
    obtain ⟨x, r⟩ := t
    obtain ⟨w, rfl, hread⟩ := whole_spanTo hclose hs
    rw [List.append_assoc, hread]
    rfl
  | none =>
    rcases mark_cases breaks place with ⟨hm, -⟩ | ⟨hm, -⟩
    · rw [hm, List.append_nil, hs]
      rfl
    · rw [hm]
      by_contra hne
      obtain ⟨⟨x, r⟩, hx⟩ := Option.ne_none_iff_exists'.1 hne
      obtain ⟨c, hc, htext⟩ := spanTo_close hx
      obtain ⟨w, hw, hread⟩ := whole_spanTo hclose hx
      rcases List.eq_nil_or_concat r with rfl | ⟨r, d, rfl⟩
      · have hlast := congrArg List.getLast? htext
        simp at hlast
        rw [← hlast, hclose] at hc
        cases hc
      · rw [List.concat_eq_append, ← List.append_assoc] at hw
        obtain ⟨hs', -⟩ := List.append_inj' hw rfl
        rw [hs', hread] at hs
        cases hs

/-- the footnote whose label begins a text in a line -/
def footnoteBehind? (l : Line) (s : Text) : Option (Container × Line) :=
  (readFootnoteLabel? s).bind fun t =>
    if t.2.head? = some ':' ∧ l.indent ≤ mostIndent then
      some (.footnote (Label.normal t.1),
        (l.skipAll.drop (l.inner.length - (t.2.length - 1))).skipAll)
    else none

theorem openFootnote?_eq {l : Line} {s : Text} (h : l.inner = '[' :: '^' :: s) :
    openFootnote? l = footnoteBehind? l s := by
  unfold openFootnote? footnoteBehind?
  rw [h]
  cases hlabel : readFootnoteLabel? s with
  | none =>
    simp only [hlabel]
    rfl
  | some t =>
    obtain ⟨label, rest⟩ := t
    simp only [hlabel, Option.bind_eq_bind, Option.bind_some]
    cases rest with
    | nil => rfl
    | cons c rest =>
      by_cases hc : c = ':'
      · subst hc
        by_cases hindent : mostIndent < l.indent
        · rw [if_neg fun e => absurd e.2 (Nat.not_le.2 hindent)]
          exact if_pos hindent
        · rw [if_pos ⟨rfl, Nat.not_lt.1 hindent⟩]
          exact if_neg hindent
      · rw [if_neg fun e => hc (Option.some.inj e.1)]
        split
        · next e => exact absurd (List.cons.inj e).1 hc
        · rfl

theorem openFootnote?_none {l : Line} (h : ¬ ['[', '^'] <+: l.inner) : openFootnote? l = none := by
  unfold openFootnote?
  split
  · next s hs => exact absurd (hs ▸ ⟨s, rfl⟩) h
  · rfl

theorem openFootnote?_alike (h : Alike breaks l l') :
    RestsAlike breaks (openFootnote? l) (openFootnote? l') := by
  by_cases hopen : ['[', '^'] <+: l.inner
  · obtain ⟨s, hs⟩ : ∃ s, l.inner = '[' :: '^' :: s := by
      obtain ⟨s, hs⟩ := hopen
      exact ⟨s, hs.symm⟩
    have hs' : l'.inner = '[' :: '^' :: (s ++ mark breaks l.stop) := by
      rw [h.inner, hs]
      rfl
    have hlabel : readFootnoteLabel? (s ++ mark breaks l.stop) =
        (readFootnoteLabel? s).map fun t => (t.1, t.2 ++ mark breaks l.stop) := by
      unfold readFootnoteLabel?
      rw [Label.span?_eq, Label.span?_eq, spanTo_mark (by decide)]
      cases spanTo (· = ']') (· = '[') (fun c => c = '[' || c = ']' || c = '\\') s with
      | none => rfl
      | some t =>
        simp only [Option.map_some, Option.bind_eq_bind, Option.bind_some]
        split <;> rfl
    rw [openFootnote?_eq hs, openFootnote?_eq hs']
    unfold footnoteBehind?
    rw [hlabel]
    cases readFootnoteLabel? s with
    | none => exact .none
    | some t =>
      obtain ⟨label, rest⟩ := t
      rw [Option.map_some, Option.bind_some, Option.bind_some]
      dsimp only
      rw [h.indent]
      by_cases hrest : rest.head? = some ':' ∧ l.indent ≤ mostIndent
      · rw [if_pos hrest, if_pos (hrest.imp_left (Line.head?_mark (by decide) _).2)]
        refine .some ⟨rfl, ?_⟩
        have hsize : l'.inner.length - ((rest ++ mark breaks l.stop).length - 1) =
            l.inner.length - (rest.length - 1) := by
          obtain ⟨r, hr⟩ := List.head?_eq_some_iff.1 hrest.1
          rw [h.inner, hr]
          simp only [List.length_append, List.length_cons]
          omega
        dsimp only
        rw [hsize]
        exact (h.skipAll.drop (by rw [l.rest_skipAll.2]; exact Nat.sub_le _ _)).skipAll
      · rw [if_neg hrest, if_neg fun e => hrest (e.imp_left (Line.head?_mark (by decide) _).1)]
        exact .none
  · have hopen' : ¬ ['[', '^'] <+: l'.inner := by
      rw [h.inner, Line.prefix_mark _ _ (by decide)]
      exact hopen
    rw [openFootnote?_none hopen, openFootnote?_none hopen']
    exact .none

/-! ### all containers -/

/-- a line with a backslash opens the containers that it opens without -/
theorem open?_alike (o : MarkdownSettings) (interrupts : Bool) (h : Alike breaks l l')
    (hrule : breaks l.stop = true → isRule l = false)
    (hblank : ∀ c t, open? o interrupts l = some (c, t) → breaks l.stop = true →
      t.isBlank = false) :
    RestsAlike breaks (open? o interrupts l) (open? o interrupts l') := by
  have hquote := afterQuoteMark?_alike h
  unfold open? at hblank ⊢
  generalize afterQuoteMark? l = r at hquote hblank ⊢
  generalize afterQuoteMark? l' = r' at hquote ⊢
  cases hquote with
  | some ht => exact .some ⟨rfl, ht⟩
  | none =>
    dsimp only at hblank ⊢
    have hitem : RestsAlike breaks (openItem? interrupts l) (openItem? interrupts l') := by
      refine openItem?_alike h hrule fun c t ht => hblank c t ?_
      rw [ht]
      rfl
    have hnote : RestsAlike breaks (if o.footnoteDefinition then openFootnote? l else none)
        (if o.footnoteDefinition then openFootnote? l' else none) := by
      split
      · exact openFootnote?_alike h
      · exact .none
    generalize openItem? interrupts l = r at hitem ⊢
    generalize openItem? interrupts l' = r' at hitem ⊢
    cases hitem with
    | some ht => exact .some ht
    | none => exact hnote

/-- and it goes on with the same ones -/
theorem continue?_alike {c : Container} (h : Alike breaks l l')
    (hblank : breaks l.stop = true → l.isBlank = false) :
    RestsAlike breaks (c.continue? l) (c.continue? l') := by
  unfold continue?
  cases c with
  | document => exact .some ⟨rfl, h⟩
  | quote =>
    have hquote := afterQuoteMark?_alike h
    dsimp only
    generalize afterQuoteMark? l = r at hquote ⊢
    generalize afterQuoteMark? l' = r' at hquote ⊢
    cases hquote with
    | none => exact .none
    | some ht => exact .some ⟨rfl, ht⟩
  | item marker number width empty =>
    dsimp only
    rw [h.isBlank hblank, h.indent]
    split
    · split
      · exact .none
      · exact .some ⟨rfl, h.skip _⟩
    · split
      · exact .none
      · exact .some ⟨rfl, h.skip _⟩
  | footnote label =>
    dsimp only
    rw [h.isBlank hblank, h.indent]
    split
    · exact .some ⟨rfl, h.skip _⟩
    · split
      · exact .none
      · exact .some ⟨rfl, h.skip _⟩

end Container

/-! ## lines that open no container -/

namespace Container

variable {o : MarkdownSettings} {interrupts : Bool} {l t : Line} {c : Container}

theorem afterQuoteMark?_length (h : afterQuoteMark? l = some t) :
    t.rest.length < l.rest.length := by
  rw [afterQuoteMark?_eq] at h
  split at h
  · next hquote =>
    cases h
    obtain ⟨r, hr⟩ := List.head?_eq_some_iff.1 hquote.1
    have hskip := (Line.skipColumn_tail (l.skipAll.drop 1)).1.length_le
    have hdrop : (l.skipAll.drop 1).rest = r := by
      rw [Line.drop, l.rest_skipAll.2, hr]
      rfl
    have hinner := (show l.inner <:+ l.rest from List.dropWhile_suffix _).length_le
    rw [hdrop] at hskip
    rw [hr, List.length_cons] at hinner
    omega
  · cases h

theorem readMarker?_pos {s : Text} {marker : Char} {number size : Nat}
    (h : readMarker? interrupts s = some (marker, number, size)) : 0 < size := by
  unfold readMarker? at h
  split at h
  · cases h
  · dsimp only at h
    split at h
    · cases h
      exact Nat.one_pos
    · split at h
      · cases h
      · split at h
        · cases h
          exact Nat.succ_pos _
        · cases h

theorem drop_skipAll_length {n : Nat} (hn : 0 < n) (hle : n ≤ l.inner.length) :
    (l.skipAll.drop n).rest.length < l.rest.length := by
  have hinner := (show l.inner <:+ l.rest from List.dropWhile_suffix _).length_le
  rw [Line.drop, l.rest_skipAll.2, List.length_drop]
  omega

theorem openItem?_length (h : openItem? interrupts l = some (c, t)) :
    t.rest.length < l.rest.length := by
  rw [openItem?_eq] at h
  obtain ⟨⟨marker, number, size⟩, hread, h⟩ := Option.bind_eq_some_iff.1 h
  have hafter := drop_skipAll_length (l := l) (readMarker?_pos hread) (readMarker?_size hread)
  have htail : t.TailOf (l.skipAll.drop size) := by
    unfold itemBehind? at h
    dsimp only at h
    split at h
    · cases h
    · split at h
      · split at h
        · cases h
        · cases h
          exact .refl _
      · split at h
        · cases h
        · split at h
          · cases h
            exact Line.skip_tail _ _
          · cases h
            exact Line.skip_tail _ _
  exact Nat.lt_of_le_of_lt htail.1.length_le hafter

theorem openFootnote?_length (h : openFootnote? l = some (c, t)) :
    t.rest.length < l.rest.length := by
  by_cases hopen : ['[', '^'] <+: l.inner
  · obtain ⟨s, hs⟩ : ∃ s, l.inner = '[' :: '^' :: s := by
      obtain ⟨s, hs⟩ := hopen
      exact ⟨s, hs.symm⟩
    rw [openFootnote?_eq hs] at h
    obtain ⟨⟨label, rest⟩, hlabel, h⟩ := Option.bind_eq_some_iff.1 h
    dsimp only at h
    split at h
    · next hcolon =>
      cases h
      have hle : rest.length ≤ s.length := by
        unfold readFootnoteLabel? at hlabel
        obtain ⟨⟨x, r⟩, hspan, hlabel⟩ := Option.bind_eq_some_iff.1 hlabel
        rw [Label.span?_eq] at hspan
        obtain ⟨d, -, hd⟩ := spanTo_close hspan
        dsimp only at hlabel
        split at hlabel
        · cases hlabel
        · cases hlabel
          rw [hd, List.length_append, List.length_cons]
          omega
      have hlength : l.inner.length = s.length + 2 := by
        rw [hs]
        rfl
      have hdrop := drop_skipAll_length (l := l)
        (n := l.inner.length - (rest.length - 1)) (by omega) (Nat.sub_le _ _)
      exact Nat.lt_of_le_of_lt (Line.skipAll_tail _).1.length_le hdrop
    · cases h
  · rw [openFootnote?_none hopen] at h
    cases h

/-- the mark of a container is not empty -/
theorem open?_length (h : open? o interrupts l = some (c, t)) : t.rest.length < l.rest.length := by
  unfold open? at h
  split at h
  · next hquote =>
    cases h
    exact afterQuoteMark?_length hquote
  · rcases (Option.orElse_eq_some _ _ _).1 h with h | ⟨-, h⟩
    · exact openItem?_length h
    · split at h
      · exact openFootnote?_length h
      · cases h

theorem open?_eq_none (hquote : l.inner.head? ≠ some '>')
    (hmark : readMarker? interrupts l.inner = none) (hnote : ¬ ['[', '^'] <+: l.inner) :
    open? o interrupts l = none := by
  unfold open?
  rw [afterQuoteMark?_eq, if_neg fun e => hquote e.1, openItem?_eq, hmark, openFootnote?_none hnote]
  dsimp only
  split <;> rfl

theorem open?_blank (h : l.isBlank = true) : open? o interrupts l = none := by
  have hinner : l.inner = [] := List.isEmpty_iff.1 h
  refine open?_eq_none ?_ ?_ ?_
  · rw [hinner]
    exact fun e => by cases e
  · rw [hinner]
    rfl
  · rw [hinner]
    exact fun e => by cases List.prefix_nil.1 e

theorem open?_rule (h : isRule l = true) : open? o interrupts l = none := by
  have hrule := (Bool.and_eq_true_iff.1 h).2
  cases hinner : l.inner with
  | nil =>
    rw [hinner] at hrule
    cases hrule
  | cons c r =>
    have hmarks : c = '*' ∨ c = '-' ∨ c = '_' := by
      rw [hinner] at hrule
      simpa [or_assoc] using (Bool.and_eq_true_iff.1 (Bool.and_eq_true_iff.1 hrule).1).1
    have hdigit : c.isDigit = false ∧ c ≠ '+' ∧ c ≠ '.' ∧ c ≠ ')' ∧ c ≠ '>' ∧ c ≠ '[' := by
      rcases hmarks with rfl | rfl | rfl <;> decide
    obtain ⟨hdigit, hplus, hdot, hparen, hquote, hbracket⟩ := hdigit
    refine open?_eq_none ?_ ?_ ?_
    · rw [hinner]
      exact fun e => hquote (Option.some.inj e)
    · unfold readMarker?
      rw [hinner] at hrule ⊢
      dsimp only
      rw [hrule, List.takeWhile_cons_of_neg (by rw [hdigit]; exact Bool.false_ne_true)]
      simp [hplus, hdot, hparen]
    · rw [hinner]
      exact fun e => hbracket (List.cons_prefix_cons.1 e).1.symm

end Container

end MarkdownModule.Markdown

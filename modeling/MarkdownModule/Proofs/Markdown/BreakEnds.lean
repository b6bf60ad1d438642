import MarkdownModule.Proofs.Markdown.Scan

/-!
# Backslashes before line endings

A backslash before a line ending makes it a line break.  Readers of constructs take the same from a
text with such backslashes, if there are none of them in what they take.

* `Markdown.breakEnds`   a text with backslashes before some of its line endings
* `Markdown.CleanEnds`   what stands before these is neither a blank nor part of another mark
-/

namespace MarkdownModule.Markdown

/-! ## texts with backslashes -/

section
variable (breaks : Nat → Bool) (ends : List Nat)

/-- whether the line ending before `r` becomes a break; `ends` holds the places of all line endings
from the last one to the first -/
def breaksAt (r : Text) : Bool := ends[r.count '\n']?.any breaks

/-- a text with a backslash before each line ending that becomes a break -/
def breakEnds : Text → Text
  | [] => []
  | c :: r =>
    if c = '\n' && breaksAt breaks ends r then '\\' :: c :: breakEnds r else c :: breakEnds r

/-- whether a line that ends after a character may get a backslash: no blank, bar or other backslash
is at its end -/
def takesBackslash (last : Option Char) : Bool := last.all fun c => !isGap c && c ≠ '|' && c ≠ '\\'

/-- whether each line ending that becomes a break stands behind a character that lets it -/
def cleanEnds : Option Char → Text → Bool
  | _, [] => true
  | last, c :: r =>
    (!(c = '\n' && breaksAt breaks ends r) || takesBackslash last) && cleanEnds (some c) r

/-- no line ending of `w` becomes a break before `r` -/
def Hard (w r : Text) : Prop := breakEnds breaks (ends.drop (r.count '\n')) w = w

end

section
variable {breaks : Nat → Bool} {ends : List Nat}

theorem breaksAt_append (w r : Text) :
    breaksAt breaks ends (w ++ r) = breaksAt breaks (ends.drop (r.count '\n')) w := by
  rw [breaksAt, breaksAt, List.getElem?_drop, List.count_append, Nat.add_comm]

theorem breaksAt_eq {r : Text} (h : r.count '\n' < ends.length) :
    breaksAt breaks ends r = breaks (Scope.placeBefore ends r) := by
  rw [breaksAt, Scope.placeBefore, List.getElem?_eq_getElem h]
  rfl

theorem breakEnds_append (w r : Text) : breakEnds breaks ends (w ++ r) =
    breakEnds breaks (ends.drop (r.count '\n')) w ++ breakEnds breaks ends r := by
  induction w with
  | nil => rfl
  | cons c w ih =>
    rw [List.cons_append, breakEnds, breakEnds, breaksAt_append, ih]
    split <;> rfl

theorem Hard.append {w r : Text} (h : Hard breaks ends w r) :
    breakEnds breaks ends (w ++ r) = w ++ breakEnds breaks ends r := by
  rw [breakEnds_append, h]

theorem breakEnds_cons {c : Char} (hc : c ≠ '\n') (r : Text) :
    breakEnds breaks ends (c :: r) = c :: breakEnds breaks ends r := by
  rw [breakEnds, decide_eq_false hc]
  rfl

theorem Hard.tail {c : Char} {w r : Text} (hc : c ≠ '\n') (h : Hard breaks ends (c :: w) r) :
    Hard breaks ends w r := by
  rw [Hard, breakEnds_cons hc] at h
  exact (List.cons.inj h).2

theorem breakEnds_eq_self {s : Text}
    (h : ∀ place ∈ Scope.endsOf ends s, breaks place = false) (hlen : s.count '\n' ≤ ends.length) :
    breakEnds breaks ends s = s := by
  induction s with
  | nil => rfl
  | cons c r ih =>
    by_cases hc : c = '\n'
    · subst hc
      rw [Scope.endsOf, if_pos rfl] at h
      rw [List.count_cons_self] at hlen
      obtain ⟨hplace, h⟩ := List.forall_mem_cons.1 h
      rw [breakEnds, breaksAt_eq hlen, hplace, ih h (by omega), Bool.and_false]
      rfl
    · rw [Scope.endsOf, if_neg hc] at h
      rw [List.count_cons_of_ne hc] at hlen
      rw [breakEnds_cons hc, ih h hlen]

/-- no line ending of the first part of a text becomes a break if those that do are all behind it -/
theorem Hard.of_places {w r : Text} (hnodup : (Scope.endsOf ends (w ++ r)).Nodup)
    (hlen : (w ++ r).count '\n' ≤ ends.length)
    (hplaces : ∀ place ∈ Scope.endsOf ends (w ++ r), breaks place = true →
      place ∈ Scope.endsOf ends r) : Hard breaks ends w r := by
  rw [Scope.endsOf_append] at hnodup hplaces
  rw [List.count_append] at hlen
  refine breakEnds_eq_self (fun place hplace => ?_) (by rw [List.length_drop]; omega)
  by_contra hbreak
  have hmem := hplaces place (List.mem_append_left _ hplace) (by simpa using hbreak)
  exact (List.nodup_append.1 hnodup).2.2 _ hplace _ hmem rfl

variable (breaks ends) in
/-- the first character stays, unless it is a line ending that gets a backslash -/
theorem head?_breakEnds (r : Text) : (breakEnds breaks ends r).head? = r.head? ∨
    (r.head? = some '\n' ∧ (breakEnds breaks ends r).head? = some '\\') := by
  cases r with
  | nil => exact .inl rfl
  | cons c r =>
    rw [breakEnds]
    split
    · next h =>
      rw [Bool.and_eq_true, decide_eq_true_eq] at h
      exact .inr ⟨congrArg some h.1, rfl⟩
    · exact .inl rfl

theorem head?_breakEnds_eq_some {c : Char} (hc : c ≠ '\\') (r : Text) :
    (breakEnds breaks ends r).head? = some c → r.head? = some c := by
  intro h
  rcases head?_breakEnds breaks ends r with e | ⟨-, e⟩
  · rw [← e, h]
  · rw [h] at e
    exact absurd (Option.some.inj e) hc

theorem head?_breakEnds_iff {c : Char} (hc : c ≠ '\\') (hc' : c ≠ '\n') (r : Text) :
    (breakEnds breaks ends r).head? = some c ↔ r.head? = some c := by
  refine ⟨head?_breakEnds_eq_some hc r, fun h => ?_⟩
  rcases head?_breakEnds breaks ends r with e | ⟨e, -⟩
  · rw [e, h]
  · rw [h] at e
    exact absurd (Option.some.inj e) hc'

theorem breakEnds_ne_nil {r : Text} (hr : r ≠ []) : breakEnds breaks ends r ≠ [] := by
  obtain ⟨c, r, rfl⟩ := List.exists_cons_of_ne_nil hr
  rw [breakEnds]
  split
  · exact List.cons_ne_nil _ _
  · exact List.cons_ne_nil _ _

/-- a text without backslashes before a text with them is before the one without -/
theorem exists_of_breakEnds {w r t : Text} (hw : '\\' ∉ w)
    (h : breakEnds breaks ends r = w ++ t) : ∃ t', r = w ++ t' ∧ t = breakEnds breaks ends t' := by
  induction w generalizing r with
  | nil => exact ⟨r, rfl, h.symm⟩
  | cons c w ih =>
    rw [List.mem_cons, not_or] at hw
    cases r with
    | nil => cases h
    | cons d r =>
      rw [breakEnds] at h
      split at h
      · exact absurd (List.cons.inj h).1 hw.1
      · obtain ⟨rfl, hrest⟩ := List.cons.inj h
        obtain ⟨t', rfl, ht⟩ := ih hw.2 hrest
        exact ⟨t', rfl, ht⟩

variable (breaks ends) in
theorem length_le_breakEnds (r : Text) : r.length ≤ (breakEnds breaks ends r).length := by
  induction r with
  | nil => exact Nat.le_refl 0
  | cons c r ih =>
    rw [breakEnds]
    split
    · exact Nat.succ_le_succ (Nat.le_succ_of_le ih)
    · exact Nat.succ_le_succ ih

theorem length_breakEnds_lt (c : Char) (r : Text) :
    (breakEnds breaks ends r).length < (breakEnds breaks ends (c :: r)).length := by
  rw [breakEnds]
  split
  · exact Nat.lt_succ_of_lt (Nat.lt_succ_self _)
  · exact Nat.lt_succ_self _

theorem cleanEnds_append {w r : Text} {last : Option Char} (hw : w ≠ [])
    (h : cleanEnds breaks ends last (w ++ r) = true) :
    cleanEnds breaks ends w.getLast? r = true := by
  induction w generalizing last with
  | nil => exact absurd rfl hw
  | cons c w ih =>
    rw [List.cons_append, cleanEnds, Bool.and_eq_true] at h
    cases w with
    | nil => exact h.2
    | cons d w => exact ih (List.cons_ne_nil d w) h.2

/-! ## constructs -/

variable (breaks ends) in
theorem span_breakEnds {p : Char → Bool} (hend : p '\n' = false) (hbackslash : p '\\' = false)
    (s : Text) : (breakEnds breaks ends s).takeWhile p = s.takeWhile p ∧
      (breakEnds breaks ends s).dropWhile p = breakEnds breaks ends (s.dropWhile p) := by
  induction s with
  | nil => exact ⟨rfl, rfl⟩
  | cons c r ih =>
    by_cases hc : c = '\n'
    · subst hc
      rw [List.takeWhile_cons, List.dropWhile_cons, hend]
      rw [if_neg Bool.false_ne_true, if_neg Bool.false_ne_true, breakEnds]
      split
      · rw [List.takeWhile_cons, List.dropWhile_cons, hbackslash]
        exact ⟨rfl, rfl⟩
      · rw [List.takeWhile_cons, List.dropWhile_cons, hend]
        exact ⟨rfl, rfl⟩
    · rw [breakEnds_cons hc, List.takeWhile_cons, List.takeWhile_cons, List.dropWhile_cons,
        List.dropWhile_cons, ih.1, ih.2]
      refine ⟨rfl, ?_⟩
      split
      · rfl
      · rw [breakEnds_cons hc]

theorem afterSemicolon?_breakEnds (s : Text) : Html.afterSemicolon? (breakEnds breaks ends s) =
    (Html.afterSemicolon? s).map (breakEnds breaks ends) := by
  by_cases hs : s.head? = some ';'
  · obtain ⟨r, rfl⟩ := List.head?_eq_some_iff.1 hs
    rw [breakEnds_cons (by decide)]
    rfl
  · have hnone : ∀ {t : Text}, t.head? ≠ some ';' → Html.afterSemicolon? t = none := by
      intro t ht
      rw [Option.eq_none_iff_forall_ne_some]
      intro r hr
      rw [afterSemicolon?_eq_some.1 hr] at ht
      exact ht rfl
    rw [hnone hs, hnone fun h => hs (head?_breakEnds_eq_some (by decide) s h)]
    rfl

theorem readNumber?_breakEnds {base most : Nat} {digit : Char → Bool} (hend : digit '\n' = false)
    (hbackslash : digit '\\' = false) (s : Text) :
    readNumber? base most digit (breakEnds breaks ends s) =
      (readNumber? base most digit s).map fun t => (t.1, breakEnds breaks ends t.2) := by
  obtain ⟨htake, hdrop⟩ := span_breakEnds breaks ends hend hbackslash s
  unfold readNumber?
  dsimp only
  rw [htake, hdrop, afterSemicolon?_breakEnds]
  cases Html.afterSemicolon? (s.dropWhile digit) with
  | none => rfl
  | some rest =>
    simp only [Option.map_some, Option.bind_eq_bind, Option.bind_some]
    split <;> rfl

/-- a reference holds no line ending -/
theorem readReference?_breakEnds (s : Text) : readReference? (breakEnds breaks ends s) =
    (readReference? s).map fun t => (t.1, breakEnds breaks ends t.2) := by
  by_cases hs : s.head? = some '#'
  · obtain ⟨u, rfl⟩ := List.head?_eq_some_iff.1 hs
    rw [breakEnds_cons (by decide)]
    by_cases hx : u.head? = some 'x'
    · obtain ⟨v, rfl⟩ := List.head?_eq_some_iff.1 hx
      rw [breakEnds_cons (by decide)]
      exact readNumber?_breakEnds (by decide) (by decide) v
    · by_cases hX : u.head? = some 'X'
      · obtain ⟨v, rfl⟩ := List.head?_eq_some_iff.1 hX
        rw [breakEnds_cons (by decide)]
        exact readNumber?_breakEnds (by decide) (by decide) v
      · rw [readReference?_decimal hx hX, readReference?_decimal
          (fun h => hx (head?_breakEnds_eq_some (by decide) u h))
          fun h => hX (head?_breakEnds_eq_some (by decide) u h)]
        exact readNumber?_breakEnds (by decide) (by decide) u
  · obtain ⟨htake, hdrop⟩ := span_breakEnds breaks ends (p := Char.isAlphanum) (by decide)
      (by decide) s
    rw [readReference?_named hs, readReference?_named
      fun h => hs (head?_breakEnds_eq_some (by decide) s h), htake, hdrop, afterSemicolon?_breakEnds]
    cases Html.afterSemicolon? (s.dropWhile Char.isAlphanum) with
    | none => rfl
    | some rest =>
      simp only [Option.map_some, Option.bind_some]
      cases Html.namedText? (s.takeWhile Char.isAlphanum) <;> rfl

/-- a text without a line ending in which a text with backslashes begins before one without -/
theorem exists_of_breakEnds_line {w r t : Text} (hw : '\n' ∉ w) (ht : t.head? ≠ some '\n')
    (h : breakEnds breaks ends r = w ++ t) : ∃ t', r = w ++ t' ∧ t = breakEnds breaks ends t' := by
  induction w generalizing r with
  | nil => exact ⟨r, rfl, h.symm⟩
  | cons c w ih =>
    rw [List.mem_cons, not_or] at hw
    cases r with
    | nil => cases h
    | cons d r =>
      rw [breakEnds] at h
      split at h
      · next hd =>
        rw [Bool.and_eq_true, decide_eq_true_eq] at hd
        obtain ⟨-, hrest⟩ := List.cons.inj h
        cases w with
        | nil =>
          refine absurd ?_ ht
          rw [← hd.1]
          exact (congrArg List.head? hrest).symm
        | cons e w =>
          obtain ⟨he, -⟩ := List.cons.inj hrest
          refine absurd ?_ hw.2
          rw [← hd.1, he]
          exact List.mem_cons_self
      · obtain ⟨rfl, hrest⟩ := List.cons.inj h
        obtain ⟨t', rfl, ht'⟩ := ih hw.2 hrest
        exact ⟨t', rfl, ht'⟩

/-- an autolink holds no line ending -/
theorem readAutolink?_breakEnds_none {s : Text} (h : readAutolink? s = none) :
    readAutolink? (breakEnds breaks ends s) = none := by
  rw [Option.eq_none_iff_forall_ne_some]
  rintro ⟨x, t⟩ hread
  obtain ⟨w, hs, hw, hwhole⟩ := readAutolink?_eq_some hread
  have hend : '\n' ∉ w := fun hmem => absurd (hw _ hmem) (by decide)
  obtain ⟨t', rfl, ht'⟩ := exists_of_breakEnds_line hend (by simp) hs
  have hhead : (breakEnds breaks ends t').head? = some '>' := by
    rw [← ht']
    rfl
  obtain ⟨v, rfl⟩ := List.head?_eq_some_iff.1 (head?_breakEnds_eq_some (by decide) t' hhead)
  rw [hwhole v] at h
  cases h

theorem breakEnds_replicate {c : Char} (hc : c ≠ '\n') (k : Nat) (r : Text) :
    breakEnds breaks ends (List.replicate k c ++ r) =
      List.replicate k c ++ breakEnds breaks ends r := by
  induction k with
  | zero => rfl
  | succ k ih =>
    rw [List.replicate_succ, List.cons_append, breakEnds_cons hc, ih, List.cons_append]

/-- runs of marks stay as they are -/
theorem spanUntil?_breakEnds_none {c : Char} (hc : c ≠ '\n') (hc' : c ≠ '\\') {n : Nat}
    (fuel : Nat) {s : Text} (h : spanUntil? c n fuel s = none) (hfuel : s.length < fuel)
    (fuel' : Nat) : spanUntil? c n fuel' (breakEnds breaks ends s) = none := by
  have hskip : ∀ {d : Char} (fuel') {t : Text}, d ≠ c → (∀ fuel', spanUntil? c n fuel' t = none) →
      spanUntil? c n fuel' (d :: t) = none := by
    intro d fuel' t hd ht
    cases fuel' with
    | zero => rfl
    | succ fuel' =>
      rw [spanUntil?, if_neg hd, ht fuel']
      rfl
  induction fuel generalizing s fuel' with
  | zero => exact absurd hfuel (Nat.not_lt_zero _)
  | succ fuel ih =>
    cases s with
    | nil => cases fuel' <;> rfl
    | cons d r =>
      by_cases hd : d = c
      · subst hd
        obtain ⟨u, hu, hhead, -⟩ := exists_run d (d :: r)
        obtain ⟨k, hk⟩ : ∃ k, runLength d (d :: r) = k + 1 :=
          ⟨(r.takeWhile (· = d)).length, by simp [runLength]⟩
        rw [hk] at hu
        rw [hu, List.length_append, List.length_replicate] at hfuel
        rw [hu, spanUntil?_run hhead] at h
        rw [hu, breakEnds_replicate hc]
        cases fuel' with
        | zero => rfl
        | succ fuel' =>
          rw [spanUntil?_run fun e => hhead (head?_breakEnds_eq_some hc' u e)]
          split at h
          · cases h
          · next hn => rw [if_neg hn, ih (Option.map_eq_none_iff.1 h) (by omega) fuel']; rfl
      · rw [spanUntil?, if_neg hd] at h
        rw [List.length_cons] at hfuel
        have hrest := ih (Option.map_eq_none_iff.1 h) (by omega)
        rw [breakEnds]
        split
        · exact hskip fuel' (Ne.symm hc') fun fuel' => hskip fuel' hd hrest
        · exact hskip fuel' hd hrest

theorem readSpan?_breakEnds_none {c : Char} (hc : c ≠ '\n') (hc' : c ≠ '\\') {s : Text}
    (h : readSpan? c s = none) : readSpan? c (breakEnds breaks ends s) = none := by
  obtain ⟨u, hu, hhead, hdrop⟩ := exists_run c s
  generalize hk : runLength c s = k at hu hdrop
  have hhead' : (breakEnds breaks ends u).head? ≠ some c := fun e =>
    hhead (head?_breakEnds_eq_some hc' u e)
  have hread : ∀ {v : Text}, v.head? ≠ some c → readSpan? c (List.replicate k c ++ v) =
      spanUntil? c k ((List.replicate k c ++ v).length + 1) v := by
    intro v hv
    unfold readSpan?
    rw [runLength_replicate hv]
    dsimp only
    rw [List.drop_left' (List.length_replicate ..)]
  rw [hu, hread hhead] at h
  rw [hu, breakEnds_replicate hc, hread hhead']
  exact spanUntil?_breakEnds_none hc hc' _ h (by rw [List.length_append]; omega) _

end

end MarkdownModule.Markdown

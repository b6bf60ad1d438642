import MarkdownModule.Proofs.Yaml.Ending.Property
import MarkdownModule.Yaml.QuotedScalar

/-!
# Quoted and plain scalars before line endings

Line endings at the end of a text do not change what is read here.

* `Yaml.readQuoted_alike`   a scalar in quotes
* `Yaml.readPlain_alike`    a scalar without quotes
-/

namespace MarkdownModule.Yaml

/-! ## white space -/

/-- line endings are white space -/
theorem readFold_endings (narrow : Nat → Bool) (m : Nat) (f : Fold) {d : Cursor}
    (hd : Endings d.rest) : ∃ f' d', readFold narrow m f d = .ok (f', d') ∧ Endings d'.rest := by
  induction m generalizing f d with
  | zero => exact ⟨f, d, rfl, hd⟩
  | succ m ih =>
    unfold readFold Cursor.head?
    cases hr : d.rest with
    | nil => exact ⟨f, d, rfl, hr ▸ endings_nil⟩
    | cons y s =>
      have hy : y = '\r' ∨ y = '\n' := hd y (by rw [hr]; exact List.mem_cons_self)
      have hgap : isGap y = false := by
        rcases hy with rfl | rfl <;> decide
      have hskip : Endings d.skipBreak.rest := by
        rw [Cursor.rest_skipBreak]
        exact hd.drop _
      obtain ⟨f', d', hread, he⟩ := ih (if f.broken then
        { f with more := f.more ++ d.breakText } else
        { f with broken := true, first := d.breakText }) hskip
      refine ⟨f', d', ?_, he⟩
      simpa [hgap, isBreak_of_ending hy] using hread

/-- white space is read from both texts, and it is the same unless it reaches the end -/
structure Folds (e : Text) (c : Cursor) (p q : Fold × Cursor) : Prop where
  fold : p.2.rest ≠ [] → p.1 = q.1
  cursor : p.2.Follows e q.2
  length : p.2.rest.length ≤ c.rest.length
  progress : atGap c.rest = true → c.rest ≠ [] → p.2.rest.length < c.rest.length

section
variable {e : Text} (he : Endings e)
include he

theorem readFold_alike (narrow : Nat → Bool) {n m : Nat} (f : Fold) {c d : Cursor}
    (h : c.Follows e d) (hn : c.rest.length < n) (hm : d.rest.length < m) :
    Alike (Folds e c) (readFold narrow n f c) (readFold narrow m f d) := by
  induction n generalizing m f c d with
  | zero => exact absurd hn (Nat.not_lt_zero _)
  | succ n ih =>
    obtain ⟨m, rfl⟩ := Nat.exists_eq_succ_of_ne_zero (Nat.ne_of_gt (Nat.zero_lt_of_lt hm))
    cases hc : c.rest with
    | nil =>
      obtain ⟨f', d', hread, hd'⟩ := readFold_endings narrow (m + 1) f (h.atEnd hc)
      rw [hread]
      unfold readFold Cursor.head?
      rw [hc]
      exact .ok ⟨fun hne => absurd hc hne,
        .nil hc hd', Nat.le_refl _,
        fun _ hne => absurd hc hne⟩
    | cons x r =>
      have hd := h.rest_cons hc
      have hne : c.rest ≠ [] := by rw [hc]; exact List.cons_ne_nil x r
      have hstep {c' : Cursor} (hlt : c'.rest.length < c.rest.length) (p q : Fold × Cursor)
          (hpq : Folds e c' p q) : Folds e c p q :=
        ⟨hpq.fold, hpq.cursor, Nat.le_trans hpq.length (Nat.le_of_lt hlt),
          fun _ _ => Nat.lt_of_le_of_lt hpq.length hlt⟩
      unfold readFold Cursor.head?
      rw [hc, hd]
      dsimp only [List.head?_cons]
      rw [h.column hne, h.breakText hne]
      split
      · split
        · exact .error _ _
        · have hpos : 1 ≤ c.rest.length := by rw [hc]; exact Nat.le_add_left 1 _
          have hlc := Cursor.length_skip_lt Nat.one_pos hpos
          have hld := Cursor.length_skip_lt Nat.one_pos (Nat.le_trans hpos (h.length_le he))
          exact (ih _ (h.skip he hpos) (by omega) (by omega)).mono (hstep hlc)
      · split
        · next hx =>
          have hlc : c.skipBreak.rest.length < c.rest.length :=
            Cursor.length_skipBreak_lt (by unfold Cursor.head?; rw [hc]; exact hx)
          have hld : d.skipBreak.rest.length < d.rest.length :=
            Cursor.length_skipBreak_lt (by unfold Cursor.head?; rw [hd]; exact hx)
          exact (ih _ (h.skipBreak he) (by omega) (by omega)).mono (hstep hlc)
        · next hgap hx =>
          refine .ok ⟨fun _ => rfl, h, Nat.le_refl _, fun hat _ => ?_⟩
          rw [hc] at hat
          simp [atGap, hgap, hx] at hat

end

/-! ## quoted scalars -/

theorem hexValue?_of_mem {ds : Text} {c : Char} (hc : c ∈ ds) (h : Json.hexDigit? c = none) :
    hexValue? ds = none := by
  have hnone (ds : Text) : ds.foldl
      (fun n d => do some ((← n) * 16 + (← Json.hexDigit? d))) (none : Option Nat) = none := by
    induction ds with
    | nil => rfl
    | cons d ds ih => exact ih
  have hfold (init : Option Nat) : ds.foldl
      (fun n d => do some ((← n) * 16 + (← Json.hexDigit? d))) init = none := by
    induction ds generalizing init with
    | nil => exact absurd hc List.not_mem_nil
    | cons d ds ih =>
      rcases List.mem_cons.1 hc with rfl | hc
      · rw [List.foldl_cons, h]
        cases init <;> exact hnone ds
      · exact ih hc _
  exact hfold (some 0)

theorem readQuotedRun_endings (q : Char) (m : Nat) {d : Cursor} (hd : Endings d.rest) :
    readQuotedRun q m d = .ok ([], false, d) := by
  cases m with
  | zero => rfl
  | succ m =>
    unfold readQuotedRun
    cases hr : d.rest with
    | nil => rfl
    | cons y s =>
      have hy := isBreak_of_ending (hd y (by rw [hr]; exact List.mem_cons_self))
      simp [hy]

/-- a quoted scalar after its first row of characters -/
def quotedRest (q : Char) (m : Nat) (run : Text) (escaped : Bool) (c : Cursor) :
    Except Error (Text × Cursor) := do
  if c.startsWith q then .ok (run, c.skip 1)
  else
    let (f, c) ← readFold (fun _ => false) (c.rest.length + 1) { broken := escaped } c
    let (more, c) ← readQuotedText q m c
    .ok (run ++ f.text ++ more, c)

theorem readQuotedText_succ (q : Char) (m : Nat) (c : Cursor) :
    readQuotedText q (m + 1) c =
      if c.atDocumentMark || c.rest.isEmpty then .error .unclosedQuote
      else readQuotedRun q (c.rest.length + 1) c >>= fun r => quotedRest q m r.1 r.2.1 r.2.2 := rfl

/-- among line endings there is no closing quote -/
theorem readQuotedText_endings {q : Char} (hq : NoEnding (· == q)) (m : Nat) {d : Cursor}
    (hd : Endings d.rest) : (∃ a, readQuotedText q m d = .error a) ∧
      ∀ run escaped, ∃ a, quotedRest q m run escaped d = .error a := by
  have hrest (m : Nat) (ih : ∀ d : Cursor, Endings d.rest → ∃ a, readQuotedText q m d = .error a)
      (d : Cursor) (hd : Endings d.rest) (run : Text) (escaped : Bool) :
      ∃ a, quotedRest q m run escaped d = .error a := by
    obtain ⟨f, d', hfold, hd'⟩ :=
      readFold_endings (fun _ => false) (d.rest.length + 1) { broken := escaped } hd
    obtain ⟨a, ha⟩ := ih d' hd'
    unfold quotedRest
    rw [Cursor.startsWith_endings hq hd, hfold]
    show ∃ a, (readQuotedText q m d' >>= _) = .error a
    rw [ha]
    exact ⟨a, rfl⟩
  have htext : ∀ d : Cursor, Endings d.rest → ∃ a, readQuotedText q m d = .error a := by
    induction m with
    | zero => exact fun _ _ => ⟨_, rfl⟩
    | succ m ih =>
      intro d hd
      rw [readQuotedText_succ, readQuotedRun_endings q _ hd]
      split
      · exact ⟨_, rfl⟩
      · exact hrest m ih d hd [] false
  exact ⟨htext d hd, hrest m htext d hd⟩

/-- A row of characters is read from both texts, or an escape is cut short by the end of the shorter
one. -/
inductive Runs (e : Text) (q : Char) (k : Nat) :
    Except Error (Text × Bool × Cursor) → Except Error (Text × Bool × Cursor) → Prop where
  | error (a b : Error) : Runs e q k (.error a) (.error b)
  | ok (t : Text) (b : Bool) {c d : Cursor} (h : c.Follows e d) (hk : c.rest.length ≤ k)
      (hstop : atGap c.rest = true ∨ c.startsWith q = true ∨ c.rest.length < k) :
      Runs e q k (.ok (t, b, c)) (.ok (t, b, d))
  | escape (a : Error) (t : Text) (b : Bool) {d : Cursor} (hd : Endings d.rest) :
      Runs e q k (.error a) (.ok (t, b, d))

/-- one more character in front of both rows -/
theorem Runs.cons {e : Text} {q : Char} {i k : Nat} {x y : Except Error (Text × Bool × Cursor)}
    (h : Runs e q i x y) (hk : i < k) (z : Char) :
    Runs e q k (do let (t, b, c) ← x; .ok (z :: t, b, c)) (do let (t, b, c) ← y; .ok (z :: t, b, c)) := by
  cases h with
  | error a b => exact .error a b
  | ok t b h hi _ => exact .ok _ b h (by omega) (.inr (.inr (by omega)))
  | escape a t b hd => exact .escape a _ b hd

/-- a row of characters that begins with a backslash, before the rest `r` of the text -/
def escapedRun (q : Char) (m : Nat) (c : Cursor) (r : Text) : Except Error (Text × Bool × Cursor) :=
  if r.head?.any isBreak then .ok ([], true, (c.skip 1).skipBreak)
  else
    match readEscape? r with
    | none => .error .unknownEscape
    | some (e, n) => do
      let (t, b, c) ← readQuotedRun q m (c.skip (n + 1))
      .ok (e :: t, b, c)

/-- an escape is written by some characters of the text -/
theorem length_of_readEscape? {s : Text} {c : Char} {n : Nat} (h : readEscape? s = some (c, n)) :
    0 < n ∧ n ≤ s.length := by
  unfold readEscape? at h
  cases s with
  | nil => exact nomatch h
  | cons x r =>
    cases hk : codeLength? x with
    | none =>
      simp only [hk, Option.map_eq_some_iff, Prod.mk.injEq] at h
      obtain ⟨-, -, -, rfl⟩ := h
      exact ⟨Nat.one_pos, Nat.le_add_left 1 _⟩
    | some k =>
      simp only [hk] at h
      obtain ⟨v, -, h⟩ := Option.bind_eq_some_iff.1 h
      split at h
      · exact nomatch h
      · next hlong =>
        simp only [Bool.or_eq_true, decide_eq_true_eq, not_or] at hlong
        obtain rfl := (Prod.mk.inj (Option.some.inj h)).2
        rw [List.length_cons]
        omega

section
variable {e : Text} (he : Endings e)
include he

/-- line endings write no part of an escape -/
theorem readEscape_endings {s : Text} (hs : s ≠ []) : readEscape? (s ++ e) = readEscape? s := by
  cases s with
  | nil => exact absurd rfl hs
  | cons x r =>
    rw [List.cons_append]
    unfold readEscape?
    dsimp only
    cases hk : codeLength? x with
    | none => rfl
    | some k =>
      dsimp only
      by_cases hlen : k ≤ r.length
      · rw [List.take_append_of_le_length hlen]
        have hshort : ¬ r.length < k ∧ ¬ (r ++ e).length < k := by
          rw [List.length_append]
          omega
        simp only [hshort.1, hshort.2]
      · have hleft : (do
            let v ← hexValue? (r.take k)
            if r.length < k || (0xd800 ≤ v && v < 0xe000) || 0x110000 ≤ v then none
            else some (Char.ofNat v, k + 1)) = none := by
          cases hexValue? (r.take k) with
          | none => rfl
          | some v => simp [Nat.lt_of_not_le hlen]
        rw [hleft]
        cases e with
        | nil =>
          rw [List.append_nil]
          exact hleft
        | cons y e =>
          have hy : y ∈ (r ++ y :: e).take k := by
            rw [List.take_append]
            obtain ⟨i, hi⟩ := Nat.exists_eq_succ_of_ne_zero
              (Nat.sub_ne_zero_of_lt (Nat.lt_of_not_le hlen))
            rw [hi, List.take_succ_cons]
            exact List.mem_append_right _ List.mem_cons_self
          rw [hexValue?_of_mem hy (hexDigit_ending (endings_cons.1 he).1)]
          rfl

theorem escapedRun_runs {q x : Char} {r : Text} {n m : Nat} {c d : Cursor} (h : c.Follows e d)
    (hc : c.rest = x :: r)
    (hstep : ∀ {i : Nat} (z : Char), 0 < i → i ≤ c.rest.length → Runs e q c.rest.length
      (do let (t, b, c) ← readQuotedRun q n (c.skip i); .ok (z :: t, b, c))
      (do let (t, b, d) ← readQuotedRun q m (d.skip i); .ok (z :: t, b, d))) :
    Runs e q c.rest.length (escapedRun q n c r) (escapedRun q m d (r ++ e)) := by
  have hpos : 1 ≤ c.rest.length := by
    rw [hc]
    exact Nat.le_add_left 1 _
  have hlt := Cursor.length_skip_lt Nat.one_pos hpos
  cases r with
  | nil =>
    cases e with
    | nil => exact .error _ _
    | cons y e =>
      have hbreak : ((y :: e : Text).head?.any isBreak) = true :=
        isBreak_of_ending (endings_cons.1 he).1
      have hends : Endings (d.skip 1).skipBreak.rest := by
        rw [Cursor.rest_skipBreak]
        refine Endings.drop ?_ _
        show Endings (d.rest.drop 1)
        rw [h.rest_cons hc]
        exact he
      unfold escapedRun
      rw [List.nil_append, if_pos hbreak]
      exact .escape _ _ _ hends
  | cons y r =>
    have hbreak : (y :: r ++ e).head?.any isBreak = (y :: r).head?.any isBreak := rfl
    unfold escapedRun
    rw [readEscape_endings he (List.cons_ne_nil y r), hbreak]
    split
    · have hle := Nat.lt_of_le_of_lt (c.skip 1).length_skipBreak_le hlt
      exact .ok [] true ((h.skip he hpos).skipBreak he) (Nat.le_of_lt hle) (.inr (.inr hle))
    · cases hread : readEscape? (y :: r) with
      | none => exact .error _ _
      | some z =>
        obtain ⟨-, hle⟩ := length_of_readEscape? hread
        refine hstep z.1 (Nat.succ_pos _) ?_
        rw [hc, List.length_cons]
        exact Nat.succ_le_succ hle

theorem readQuotedRun_runs {q : Char} {n m : Nat} {c d : Cursor}
    (h : c.Follows e d) (hn : c.rest.length < n) (hm : d.rest.length < m) :
    Runs e q c.rest.length (readQuotedRun q n c) (readQuotedRun q m d) := by
  induction n generalizing m c d with
  | zero => exact absurd hn (Nat.not_lt_zero _)
  | succ n ih =>
    obtain ⟨m, rfl⟩ := Nat.exists_eq_succ_of_ne_zero (Nat.ne_of_gt (Nat.zero_lt_of_lt hm))
    have hstep {i : Nat} (x : Char) (hi : 0 < i) (hic : i ≤ c.rest.length) :
        Runs e q c.rest.length
          (do let (t, b, c) ← readQuotedRun q n (c.skip i); .ok (x :: t, b, c))
          (do let (t, b, d) ← readQuotedRun q m (d.skip i); .ok (x :: t, b, d)) := by
      have hlc := Cursor.length_skip_lt hi hic
      have hld := Cursor.length_skip_lt hi (Nat.le_trans hic (h.length_le he))
      exact (ih (h.skip he hic) (by omega) (by omega)).cons hlc x
    have hstop (hat : atGap c.rest = true ∨ c.startsWith q = true ∨ c.rest.length < c.rest.length) :
        Runs e q c.rest.length (.ok ([], false, c)) (.ok ([], false, d)) :=
      .ok [] false h (Nat.le_refl _) hat
    cases hc : c.rest with
    | nil =>
      have hnil := readQuotedRun_endings q (n + 1) (d := c) (hc ▸ endings_nil)
      rw [hnil, readQuotedRun_endings q (m + 1) (h.atEnd hc)]
      rw [hc] at hstop
      exact hstop (.inl rfl)
    | cons x r =>
      have hpos : 1 ≤ c.rest.length := by rw [hc]; exact Nat.le_add_left 1 _
      have hquote : decide ((r ++ e).head? = some '\'') = decide (r.head? = some '\'') :=
        decide_eq_decide.2 (head_eq_endings he (by decide) r)
      have hescape := escapedRun_runs he h hc hstep
      unfold readQuotedRun
      rw [h.rest_cons hc, hc]
      dsimp only
      rw [hquote, ← hc]
      split
      · next hx => exact hstop (.inl (by rw [hc]; exact hx))
      split
      · next htwo =>
        have hr : r ≠ [] := by
          rintro rfl
          simp at htwo
        have hpos := List.length_pos_iff.2 hr
        refine hstep '\'' Nat.two_pos ?_
        rw [hc, List.length_cons]
        omega
      split
      · next hx =>
        refine hstop (.inr (.inl ?_))
        unfold Cursor.startsWith
        rw [hc, hx]
        exact beq_self_eq_true _
      split
      · exact hescape
      · exact hstep x Nat.one_pos hpos

/-- after a row of characters a quoted scalar goes on as one that is read with less fuel -/
theorem quotedRest_alike {q : Char} (hq : NoEnding (· == q)) {n m i k : Nat} {c d : Cursor}
    (h : c.Follows e d) (hi : c.rest.length ≤ i) (hk : i ≤ k)
    (hstop : atGap c.rest = true ∨ c.startsWith q = true ∨ c.rest.length < i)
    (ih : ∀ c' d' : Cursor, c'.Follows e d' → c'.rest ≠ [] → c'.rest.length < i →
      Alike (Reads e k) (readQuotedText q n c') (readQuotedText q m d'))
    (run : Text) (escaped : Bool) :
    Alike (Reads e k) (quotedRest q n run escaped c) (quotedRest q m run escaped d) := by
  unfold quotedRest
  rw [h.startsWith he hq]
  split
  · next hquote =>
    exact .ok ⟨rfl, h.skip_of_startsWith he hquote,
      Nat.le_trans (c.length_skip_le 1) (Nat.le_trans hi hk)⟩
  · next hquote =>
    refine (readFold_alike he _ _ h (Nat.lt_succ_self _) (Nat.lt_succ_self _)).bind ?_
    rintro ⟨f, c'⟩ ⟨f', d'⟩ hf
    have hcd : c'.Follows e d' := hf.cursor
    by_cases hc' : c'.rest = []
    · obtain ⟨a, ha⟩ := (readQuotedText_endings hq n (hc' ▸ endings_nil)).1
      obtain ⟨b, hb⟩ := (readQuotedText_endings hq m (hcd.atEnd hc')).1
      dsimp only
      rw [ha, hb]
      exact .error _ _
    · obtain rfl : f = f' := hf.fold hc'
      have hle : c'.rest.length ≤ c.rest.length := hf.length
      have hshort : c'.rest.length < i := by
        have hne : c.rest ≠ [] := fun hc => hc' (Cursor.rest_eq_nil hle hc)
        rcases hstop with hgap | hq' | hlt
        · exact Nat.lt_of_lt_of_le (hf.progress hgap hne) hi
        · exact absurd hq' hquote
        · exact Nat.lt_of_le_of_lt hle hlt
      refine (ih c' d' hcd hc' hshort).bind ?_
      rintro ⟨t, c''⟩ ⟨t', d''⟩ hr
      obtain rfl : t = t' := hr.value
      exact .ok ⟨rfl, hr.cursor, hr.length⟩

theorem readQuotedText_alike {q : Char} (hq : NoEnding (· == q)) {n m k : Nat} {c d : Cursor}
    (h : c.Follows e d) (hn : c.rest.length < n) (hm : d.rest.length < m)
    (hk : c.rest.length ≤ k) :
    Alike (Reads e k) (readQuotedText q n c) (readQuotedText q m d) := by
  induction n generalizing m c d with
  | zero => exact absurd hn (Nat.not_lt_zero _)
  | succ n ih =>
    obtain ⟨m, rfl⟩ := Nat.exists_eq_succ_of_ne_zero (Nat.ne_of_gt (Nat.zero_lt_of_lt hm))
    by_cases hc : c.rest = []
    · obtain ⟨a, ha⟩ := (readQuotedText_endings hq (n + 1) (hc ▸ endings_nil)).1
      obtain ⟨b, hb⟩ := (readQuotedText_endings hq (m + 1) (h.atEnd hc)).1
      rw [ha, hb]
      exact .error _ _
    · have hd : d.rest ≠ [] := fun hd => hc (Cursor.rest_eq_nil (h.length_le he) hd)
      have hlong := h.length hc
      rw [readQuotedText_succ, readQuotedText_succ, h.atDocumentMark he,
        List.isEmpty_eq_false_iff.2 hc, List.isEmpty_eq_false_iff.2 hd]
      split
      · exact .error _ _
      · have hrun := readQuotedRun_runs he (q := q) h (Nat.lt_succ_self _) (Nat.lt_succ_self _)
        generalize readQuotedRun q (c.rest.length + 1) c = x at hrun ⊢
        generalize readQuotedRun q (d.rest.length + 1) d = y at hrun ⊢
        cases hrun with
        | error a b => exact .error a b
        | escape a t b hd' =>
          obtain ⟨a', ha'⟩ := (readQuotedText_endings hq m hd').2 t b
          show Alike _ (.error a) (quotedRest q m t b _)
          rw [ha']
          exact .error _ _
        | ok t b h' hk' hstop =>
          refine quotedRest_alike he hq h' hk' hk hstop (fun c' d' hcd hc' hlt => ?_) t b
          have hlong' := hcd.length hc'
          exact ih hcd (by omega) (by omega) (by omega)

theorem readQuoted_alike {q : Char} (hq : NoEnding (· == q)) {c d : Cursor} (h : c.Follows e d)
    (hc : c.startsWith q = true) {k : Nat} (hk : c.rest.length ≤ k + 1) :
    Alike (Reads e k) (readQuoted q c) (readQuoted q d) := by
  have hlt := Cursor.length_skip_lt Nat.one_pos (Cursor.length_pos_of_startsWith hc)
  refine readQuotedText_alike he hq (h.skip_of_startsWith he hc) (by omega) ?_ (by omega)
  exact Nat.lt_succ_of_le (d.length_skip_le 1)

end

/-! ## plain scalars -/

theorem readPlainRun_endings (inFlow : Bool) (m : Nat) {d : Cursor} (hd : Endings d.rest) :
    readPlainRun inFlow m d = .ok ([], d) := by
  cases m with
  | zero => rfl
  | succ m =>
    unfold readPlainRun
    cases hr : d.rest with
    | nil => rfl
    | cons y s =>
      have hy : y = '\r' ∨ y = '\n' := hd y (by rw [hr]; exact List.mem_cons_self)
      have hcolon : isStrayColon inFlow (y :: s) = false := by
        rcases hy with rfl | rfl <;> rfl
      have hends : endsPlain inFlow (y :: s) = true := by
        simp [endsPlain, isBreak_of_ending hy]
      dsimp only
      rw [hcolon, hends]
      rfl

/-- a plain scalar with one more row of characters, if there are some -/
def PlainScalar.add (s : PlainScalar) (run : Text) (c : Cursor) : PlainScalar :=
  if run.isEmpty then s else { text := s.text ++ s.fold.text ++ run, fold := {}, cursor := c }

/-- a plain scalar after a row of characters -/
def plainRest (inFlow : Bool) (i m : Nat) (s : PlainScalar) (c : Cursor) :
    Except Error PlainScalar := do
  if !atGap c.rest || c.rest.isEmpty then .ok { s with cursor := c }
  else
    let (f, c) ← readFold (· < i) (c.rest.length + 1) s.fold c
    if !inFlow && c.column < i then .ok { s with fold := f, cursor := c }
    else readPlainText inFlow i m { s with fold := f, cursor := c }

theorem readPlainText_succ (inFlow : Bool) (i m : Nat) (s : PlainScalar) :
    readPlainText inFlow i (m + 1) s =
      if s.cursor.atDocumentMark || s.cursor.startsWith '#' then .ok s
      else readPlainRun inFlow (s.cursor.rest.length + 1) s.cursor >>= fun r =>
        plainRest inFlow i m (s.add r.1 r.2) r.2 := rfl

/-- at the end of a text a plain scalar is complete -/
theorem readPlainText_nil (inFlow : Bool) (i n : Nat) {s : PlainScalar} (hs : s.cursor.rest = []) :
    readPlainText inFlow i n s = .ok s := by
  cases n with
  | zero => rfl
  | succ n =>
    rw [readPlainText_succ, readPlainRun_endings inFlow _ (hs ▸ endings_nil)]
    split
    · rfl
    · show plainRest inFlow i n s s.cursor = _
      unfold plainRest
      rw [hs]
      rfl

/-- line endings do not belong to the text of a plain scalar -/
theorem readPlainText_endings (inFlow : Bool) (i m : Nat) {s : PlainScalar} {d : Cursor}
    (hd : Endings d.rest) :
    (∃ s', readPlainText inFlow i m { s with cursor := d } = .ok s' ∧ s'.text = s.text ∧
        Endings s'.cursor.rest) ∧
      ∃ s', plainRest inFlow i m s d = .ok s' ∧ s'.text = s.text ∧
        Endings s'.cursor.rest := by
  have hrest (m : Nat) (ih : ∀ (s : PlainScalar) (d : Cursor), Endings d.rest →
      ∃ s', readPlainText inFlow i m { s with cursor := d } = .ok s' ∧ s'.text = s.text ∧
        Endings s'.cursor.rest)
      (s : PlainScalar) (d : Cursor) (hd : Endings d.rest) :
      ∃ s', plainRest inFlow i m s d = .ok s' ∧ s'.text = s.text ∧
        Endings s'.cursor.rest := by
    unfold plainRest
    split
    · exact ⟨_, rfl, rfl, hd⟩
    · obtain ⟨f, d', hfold, hd'⟩ := readFold_endings (· < i) (d.rest.length + 1) s.fold hd
      rw [hfold]
      show ∃ s', (if !inFlow && d'.column < i then _ else _) = _ ∧ _
      split
      · exact ⟨_, rfl, rfl, hd'⟩
      · exact ih { s with fold := f } d' hd'
  have htext : ∀ (s : PlainScalar) (d : Cursor), Endings d.rest →
      ∃ s', readPlainText inFlow i m { s with cursor := d } = .ok s' ∧ s'.text = s.text ∧
        Endings s'.cursor.rest := by
    induction m with
    | zero => exact fun s d hd => ⟨_, rfl, rfl, hd⟩
    | succ m ih =>
      intro s d hd
      rw [readPlainText_succ, readPlainRun_endings inFlow _ hd]
      split
      · exact ⟨_, rfl, rfl, hd⟩
      · exact hrest m ih { s with cursor := d } d hd
  exact ⟨htext s d hd, hrest m htext s d hd⟩

section
variable {e : Text} (he : Endings e)
include he

theorem isStrayColon_endings (inFlow : Bool) (s : Text) :
    isStrayColon inFlow (s ++ e) = isStrayColon inFlow s := by
  have hcolon (t : Text) : isStrayColon inFlow (':' :: t) =
      t.head?.any fun d => inFlow && (isFlowIndicator d || d = '?') := by
    cases t <;> rfl
  have hother {x : Char} (hx : x ≠ ':') (t : Text) : isStrayColon inFlow (x :: t) = false := by
    unfold isStrayColon
    split
    · next heq => exact absurd (List.cons.inj heq).1 hx
    · rfl
  cases s with
  | cons x s =>
    by_cases hx : x = ':'
    · rw [hx, List.cons_append, hcolon, hcolon, head_any_endings he]
      cases inFlow <;> decide
    · rw [List.cons_append, hother hx, hother hx]
  | nil =>
    cases e with
    | nil => rfl
    | cons y e =>
      refine hother ?_ e
      rcases (endings_cons.1 he).1 with rfl | rfl <;> decide

theorem endsPlain_endings (inFlow : Bool) (s : Text) :
    endsPlain inFlow (s ++ e) = endsPlain inFlow s := by
  cases s with
  | cons x s =>
    show (isGap x || isBreak x || (x = ':' && atGap (s ++ e)) || _) = _
    rw [atGap_endings he]
    rfl
  | nil =>
    cases e with
    | nil => rfl
    | cons y e => simp [endsPlain, isBreak_of_ending (endings_cons.1 he).1]

theorem readPlainRun_alike (inFlow : Bool) {n m : Nat} {c d : Cursor} (h : c.Follows e d)
    (hn : c.rest.length < n) (hm : d.rest.length < m) :
    Alike (fun p q => Reads e c.rest.length p q ∧
        (endsPlain inFlow c.rest = false → p.2.rest.length < c.rest.length))
      (readPlainRun inFlow n c) (readPlainRun inFlow m d) := by
  induction n generalizing m c d with
  | zero => exact absurd hn (Nat.not_lt_zero _)
  | succ n ih =>
    obtain ⟨m, rfl⟩ := Nat.exists_eq_succ_of_ne_zero (Nat.ne_of_gt (Nat.zero_lt_of_lt hm))
    cases hc : c.rest with
    | nil =>
      rw [readPlainRun_endings inFlow (m + 1) (h.atEnd hc),
        readPlainRun_endings inFlow (n + 1) (hc ▸ endings_nil)]
      refine .ok ⟨⟨rfl, h, Nat.le_of_eq (congrArg List.length hc)⟩, fun hends => ?_⟩
      exact nomatch hends
    | cons x r =>
      have hd := h.rest_cons hc
      rw [← List.cons_append] at hd
      unfold readPlainRun
      rw [hd, hc, isStrayColon_endings he, endsPlain_endings he]
      dsimp only [List.cons_append]
      rw [← hc]
      split
      · exact .error _ _
      · split
        · next hends =>
          refine .ok ⟨⟨rfl, h, Nat.le_refl _⟩, fun hno => ?_⟩
          rw [hends] at hno
          exact nomatch hno
        · have hpos : 1 ≤ c.rest.length := by rw [hc]; exact Nat.le_add_left 1 _
          have hlc := Cursor.length_skip_lt Nat.one_pos hpos
          have hld := Cursor.length_skip_lt Nat.one_pos (Nat.le_trans hpos (h.length_le he))
          refine (ih (h.skip he hpos) (by omega) (by omega)).bind ?_
          rintro ⟨t, c'⟩ ⟨t', d'⟩ ⟨hr, -⟩
          obtain rfl : t = t' := hr.value
          have hlt := Nat.lt_of_le_of_lt hr.length hlc
          exact .ok ⟨⟨rfl, hr.cursor, Nat.le_of_lt hlt⟩, fun _ => hlt⟩

omit he in
/-- a plain scalar as far as it is read from both texts; the white space after it is the same unless
it reaches the end -/
structure Plains (e : Text) (k : Nat) (s s' : PlainScalar) : Prop where
  text : s.text = s'.text
  fold : s.cursor.rest ≠ [] → s.fold = s'.fold
  cursor : s.cursor.Follows e s'.cursor
  length : s.cursor.rest.length ≤ k

omit he in
theorem Plains.add {k : Nat} {s s' : PlainScalar} (h : Plains e k s s') (hs : s.cursor.rest ≠ [])
    (run : Text) (c d : Cursor) : (s.add run c).text = (s'.add run d).text ∧
      (s.add run c).fold = (s'.add run d).fold := by
  unfold PlainScalar.add
  rw [h.text, h.fold hs]
  split
  · exact ⟨h.text, h.fold hs⟩
  · exact ⟨rfl, rfl⟩

/-- after a row of characters a plain scalar goes on as one that is read with less fuel -/
theorem plainRest_of_text {inFlow : Bool} {i n m k : Nat}
    (ih : ∀ s s' : PlainScalar, Plains e k s s' → s.cursor.rest.length < n →
      s'.cursor.rest.length < m →
      Alike (Plains e k) (readPlainText inFlow i n s) (readPlainText inFlow i m s'))
    {t t' : PlainScalar} {c d : Cursor} (h : c.Follows e d) (htext : t.text = t'.text)
    (hfold : t.fold = t'.fold) (hn : c.rest.length ≤ n)
    (hm : c.rest.length + e.length ≤ m) (hk : c.rest.length ≤ k) :
    Alike (Plains e k) (plainRest inFlow i n t c) (plainRest inFlow i m t' d) := by
  by_cases hc : c.rest = []
  · obtain ⟨r, hread, htext', he'⟩ :=
      (readPlainText_endings inFlow i m (s := t') (h.atEnd hc)).2
    rw [hread]
    unfold plainRest
    rw [hc]
    exact .ok ⟨htext.trans htext'.symm, fun hne => absurd hc hne,
      .nil hc he', hk⟩
  have hd : d.rest ≠ [] := by
    rw [h.inside hc]
    exact List.append_ne_nil_of_left_ne_nil hc e
  unfold plainRest
  rw [h.atGap he, List.isEmpty_eq_false_iff.2 hc, List.isEmpty_eq_false_iff.2 hd, hfold]
  split
  · exact .ok ⟨htext, fun _ => rfl, h, hk⟩
  next hgap =>
  refine (readFold_alike he _ _ h (Nat.lt_succ_self _) (Nat.lt_succ_self _)).bind ?_
  rintro ⟨f, c'⟩ ⟨f', d'⟩ hf
  have hcd : c'.Follows e d' := hf.cursor
  have hlt : c'.rest.length < c.rest.length := hf.progress (by simpa using hgap) hc
  have hk' : c'.rest.length ≤ k := Nat.le_trans (Nat.le_of_lt hlt) hk
  dsimp only
  by_cases hc' : c'.rest = []
  · obtain ⟨r, hread, htext', he'⟩ :=
      (readPlainText_endings inFlow i m (s := { t' with fold := f' }) (hcd.atEnd hc')).1
    rw [readPlainText_nil inFlow i n hc', ite_self]
    split
    · exact .ok ⟨htext, fun hne => absurd hc' hne, hcd, hk'⟩
    · rw [hread]
      exact .ok ⟨htext.trans htext'.symm, fun hne => absurd hc' hne,
        .nil hc' he', hk'⟩
  · obtain rfl : f = f' := hf.fold hc'
    have hlong := hcd.length hc'
    have hplain : Plains e k { t with fold := f, cursor := c' } { t' with fold := f, cursor := d' } :=
      ⟨htext, fun _ => rfl, hcd, hk'⟩
    rw [hcd.column hc']
    split
    · exact .ok hplain
    · exact ih _ _ hplain (by show c'.rest.length < n; omega) (by show d'.rest.length < m; omega)

theorem readPlainText_alike (inFlow : Bool) (i : Nat) {n m k : Nat} {s s' : PlainScalar}
    (h : Plains e k s s') (hn : s.cursor.rest.length < n) (hm : s'.cursor.rest.length < m) :
    Alike (Plains e k) (readPlainText inFlow i n s) (readPlainText inFlow i m s') := by
  induction n generalizing m s s' with
  | zero => exact absurd hn (Nat.not_lt_zero _)
  | succ n ih =>
    obtain ⟨m, rfl⟩ := Nat.exists_eq_succ_of_ne_zero (Nat.ne_of_gt (Nat.zero_lt_of_lt hm))
    by_cases hs : s.cursor.rest = []
    · obtain ⟨r, hread, htext, he'⟩ :=
        (readPlainText_endings inFlow i (m + 1) (s := s') (h.cursor.atEnd hs)).1
      rw [readPlainText_nil inFlow i (n + 1) hs, hread]
      exact .ok ⟨h.text.trans htext.symm, fun hne => absurd hs hne,
        .nil hs he', h.length⟩
    · rw [readPlainText_succ, readPlainText_succ, h.cursor.atDocumentMark he,
        h.cursor.startsWith he (by decide)]
      split
      · exact .ok h
      · refine (readPlainRun_alike he inFlow h.cursor (Nat.lt_succ_self _)
          (Nat.lt_succ_self _)).bind ?_
        rintro ⟨run, c⟩ ⟨run', d⟩ ⟨hr, -⟩
        obtain rfl : run = run' := hr.value
        have hcd : c.Follows e d := hr.cursor
        have hlen : c.rest.length ≤ s.cursor.rest.length := hr.length
        have hlong := h.cursor.length hs
        obtain ⟨htext, hfold⟩ := h.add hs run c d
        refine plainRest_of_text he (fun r r' hr' hrn hrm => ih hr' hrn hrm) hcd htext hfold ?_ ?_
          (Nat.le_trans hlen h.length)
        · show c.rest.length ≤ n
          omega
        · show c.rest.length + e.length ≤ m
          omega

/-- a plain scalar, whether its last line has ended, and the cursor after it -/
theorem readPlain_alike {inFlow : Bool} (i : Nat) {k : Nat} {c d : Cursor} (h : c.Follows e d)
    (hmark : (c.atDocumentMark || c.startsWith '#') = false)
    (hends : endsPlain inFlow c.rest = false) (hk : c.rest.length ≤ k + 1) :
    Alike (fun p q : Text × Bool × Cursor => p.1 = q.1 ∧ (p.2.2.rest ≠ [] → p.2.1 = q.2.1) ∧
        p.2.2.Follows e q.2.2 ∧ p.2.2.rest.length ≤ k)
      (readPlain inFlow i c) (readPlain inFlow i d) := by
  have hc : c.rest ≠ [] := by
    intro hc
    rw [hc] at hends
    exact nomatch hends
  have hlong := h.length hc
  have hplain : Alike (Plains e k) (readPlainText inFlow i (c.rest.length + 1) { cursor := c })
      (readPlainText inFlow i (d.rest.length + 1) { cursor := d }) := by
    rw [readPlainText_succ, readPlainText_succ, h.atDocumentMark he, h.startsWith he (by decide),
      hmark]
    refine (readPlainRun_alike he inFlow h (Nat.lt_succ_self _) (Nat.lt_succ_self _)).bind ?_
    rintro ⟨run, c'⟩ ⟨run', d'⟩ ⟨hr, hprogress⟩
    obtain rfl : run = run' := hr.value
    have hcd : c'.Follows e d' := hr.cursor
    have hlt : c'.rest.length < c.rest.length := hprogress hends
    have hstart : Plains e c.rest.length { cursor := c } { cursor := d } :=
      ⟨rfl, fun _ => rfl, h, Nat.le_refl _⟩
    obtain ⟨htext, hfold⟩ := hstart.add hc run c' d'
    refine plainRest_of_text he (fun r r' hr hn hm => readPlainText_alike he inFlow i hr hn hm)
      hcd htext hfold (Nat.le_of_lt hlt) ?_ ?_
    · show c'.rest.length + e.length ≤ d.rest.length
      omega
    · show c'.rest.length ≤ k
      omega
  unfold readPlain
  refine hplain.bind fun s s' hs => .ok ⟨hs.text, fun hne => ?_, hs.cursor, hs.length⟩
  show s.fold.broken = s'.fold.broken
  rw [hs.fold hne]

end

end MarkdownModule.Yaml

import MarkdownModule.Yaml.Cursor

/-!
# A text and the same text with line endings after it

The readers of YAML look a few characters ahead, and the end of a text looks to them like a line
ending.  So they read a text and the same text with more line endings at its end in the same way, as
long as there is something left of the shorter one.

* `Yaml.Alike`            two steps that both fail, or both succeed with results that are related
* `Yaml.Endings`          a row of line endings
* `Yaml.Cursor.Follows`   a cursor in the longer text, in step with one in the shorter text
-/

namespace MarkdownModule.Yaml

/-! ## outcomes -/

/-- both steps fail, or both succeed with results that are related -/
inductive Alike {ε α β : Type} (R : α → β → Prop) : Except ε α → Except ε β → Prop where
  | error (a b : ε) : Alike R (.error a) (.error b)
  | ok {a : α} {b : β} (h : R a b) : Alike R (.ok a) (.ok b)

section
variable {ε α β α' β' : Type} {R : α → β → Prop} {S : α' → β' → Prop} {x : Except ε α}
  {y : Except ε β}

theorem Alike.refl (x : Except ε α) : Alike Eq x x := by
  cases x with
  | error a => exact .error a a
  | ok a => exact .ok rfl

theorem Alike.bind {f : α → Except ε α'} {g : β → Except ε β'} (h : Alike R x y)
    (hf : ∀ a b, R a b → Alike S (f a) (g b)) : Alike S (x >>= f) (y >>= g) := by
  cases h with
  | error a b => exact .error a b
  | ok h => exact hf _ _ h

theorem Alike.map {f : α → α'} {g : β → β'} (h : Alike R x y) (hf : ∀ a b, R a b → S (f a) (g b)) :
    Alike S (x.map f) (y.map g) := by
  cases h with
  | error a b => exact .error a b
  | ok h => exact .ok (hf _ _ h)

/-- the first of two results is the result of the first step -/
theorem Alike.of_fst (h : Alike R x y) : Alike (fun a b => R a b ∧ x = .ok a) x y := by
  cases h with
  | error a b => exact .error a b
  | ok h => exact .ok ⟨h, rfl⟩

theorem Alike.mono {T : α → β → Prop} (h : Alike R x y) (hf : ∀ a b, R a b → T a b) :
    Alike T x y := by
  cases h with
  | error a b => exact .error a b
  | ok h => exact .ok (hf _ _ h)

/-- both steps take the same branch -/
theorem Alike.ite {c : Prop} [Decidable c] {x' : Except ε α} {y' : Except ε β}
    (hx : c → Alike R x y) (hy : ¬ c → Alike R x' y') :
    Alike R (if c then x else x') (if c then y else y') := by
  split
  · next h => exact hx h
  · next h => exact hy h

end

/-! ## line endings -/

def Endings (e : Text) : Prop := ∀ c ∈ e, c = '\r' ∨ c = '\n'

def NoEnding (p : Char → Bool) : Prop := p '\r' = false ∧ p '\n' = false

instance (p : Char → Bool) : Decidable (NoEnding p) := inferInstanceAs (Decidable (_ ∧ _))

theorem endings_nil : Endings [] := fun _ h => absurd h List.not_mem_nil

theorem endings_cons {c : Char} {e : Text} :
    Endings (c :: e) ↔ (c = '\r' ∨ c = '\n') ∧ Endings e := List.forall_mem_cons

theorem NoEnding.eq_false {p : Char → Bool} (hp : NoEnding p) {c : Char}
    (hc : c = '\r' ∨ c = '\n') : p c = false := by
  rcases hc with rfl | rfl
  · exact hp.1
  · exact hp.2

theorem isBreak_of_ending {c : Char} (hc : c = '\r' ∨ c = '\n') : isBreak c = true := by
  rcases hc with rfl | rfl <;> rfl

theorem Endings.drop {e : Text} (h : Endings e) (n : Nat) : Endings (e.drop n) := fun c hc =>
  h c (List.mem_of_mem_drop hc)

section
variable {e : Text} (he : Endings e)
include he

theorem takeWhile_endings {p : Char → Bool} (hp : NoEnding p) (s : Text) :
    (s ++ e).takeWhile p = s.takeWhile p := by
  induction s with
  | nil =>
    cases e with
    | nil => rfl
    | cons c e => exact List.takeWhile_cons_of_neg (by simp [hp.eq_false (endings_cons.1 he).1])
  | cons c s ih =>
    rw [List.cons_append, List.takeWhile_cons, List.takeWhile_cons, ih]

theorem head_any_endings {p : Char → Bool} (hp : NoEnding p) (s : Text) :
    (s ++ e).head?.any p = s.head?.any p := by
  cases s with
  | nil =>
    cases e with
    | nil => rfl
    | cons c e => exact hp.eq_false (endings_cons.1 he).1
  | cons c s => rfl

theorem head_eq_endings {x : Char} (hx : x ≠ '\r' ∧ x ≠ '\n') (s : Text) :
    (s ++ e).head? = some x ↔ s.head? = some x := by
  cases s with
  | nil =>
    refine iff_of_false (fun h => ?_) (fun h => nomatch h)
    exact (he x (List.mem_of_mem_head? h)).elim hx.1 hx.2
  | cons c s => exact Iff.rfl

theorem atGap_endings (s : Text) : atGap (s ++ e) = atGap s := by
  cases s with
  | nil =>
    cases e with
    | nil => rfl
    | cons c e => simp [atGap, isBreak_of_ending (endings_cons.1 he).1]
  | cons c s => rfl

theorem atLineEnd_endings (s : Text) : atLineEnd (s ++ e) = atLineEnd s := by
  cases s with
  | nil =>
    cases e with
    | nil => rfl
    | cons c e => exact isBreak_of_ending (endings_cons.1 he).1
  | cons c s => rfl

/-- a mark of other characters is at the start of the longer text when it is at that of the shorter -/
theorem isPrefixOf_endings {mark : Text} (hm : ∀ c ∈ mark, c ≠ '\r' ∧ c ≠ '\n') (s : Text) :
    mark.isPrefixOf (s ++ e) = mark.isPrefixOf s := by
  induction mark generalizing s with
  | nil => rfl
  | cons m mark ih =>
    obtain ⟨hne, hmark⟩ := List.forall_mem_cons.1 hm
    cases s with
    | cons c s => exact congrArg (_ && ·) (ih hmark s)
    | nil =>
      cases e with
      | nil => rfl
      | cons c e =>
        have hc : (m == c) = false := by
          rw [beq_eq_false_iff_ne]
          rintro rfl
          exact (endings_cons.1 he).1.elim hne.1 hne.2
        exact congrArg (· && _) hc

end

namespace Cursor

/-! ## cursors -/

/-- the same place, with more text at the end -/
def extend (c : Cursor) (e : Text) : Cursor := { c with rest := c.rest ++ e }

/-- A cursor in the longer text follows one in the shorter text: it is at the same place, or, when the
shorter text is at its end, in the line endings. -/
structure Follows (e : Text) (c d : Cursor) : Prop where
  /-- no line ending is cut in two -/
  whole : c.rest.getLast? ≠ some '\r'
  inside : c.rest ≠ [] → d = c.extend e
  atEnd : c.rest = [] → Endings d.rest

theorem getLast_drop {s : Text} {c : Char} (h : s.getLast? ≠ some c) (n : Nat) :
    (s.drop n).getLast? ≠ some c := by
  rw [List.getLast?_drop]
  split
  · exact nofun
  · exact h

section
variable {e : Text} (he : Endings e)
include he

theorem follows_extend {c : Cursor} (hc : c.rest.getLast? ≠ some '\r') :
    c.Follows e (c.extend e) where
  whole := hc
  inside _ := rfl
  atEnd h := by
    show Endings (c.rest ++ e)
    rw [h]
    exact he

end

/-! ## reading on -/

theorem length_skip_le (c : Cursor) (n : Nat) : (c.skip n).rest.length ≤ c.rest.length :=
  (List.drop_sublist n c.rest).length_le

/-- nothing is left after the end -/
theorem rest_eq_nil {c d : Cursor} (h : d.rest.length ≤ c.rest.length) (hc : c.rest = []) :
    d.rest = [] := by
  rw [hc] at h
  exact List.length_eq_zero_iff.1 (Nat.le_zero.1 h)

theorem skip_skip (c : Cursor) (n m : Nat) : (c.skip n).skip m = c.skip (n + m) := by
  unfold skip
  simp only [List.drop_drop, Nat.add_assoc]

theorem length_pos_of_startsWith {c : Cursor} {x : Char} (h : c.startsWith x = true) :
    0 < c.rest.length := by
  unfold startsWith at h
  cases hr : c.rest with
  | nil =>
    rw [hr] at h
    exact nomatch h
  | cons y s => exact Nat.zero_lt_succ _

theorem startsWith_endings {d : Cursor} {x : Char} (hx : NoEnding (· == x)) (hd : Endings d.rest) :
    d.startsWith x = false := by
  unfold startsWith
  cases hr : d.rest with
  | nil => rfl
  | cons y s => exact hx.eq_false (hd y (by rw [hr]; exact List.mem_cons_self))

theorem length_skip_lt {c : Cursor} {n : Nat} (hn : 0 < n) (hc : n ≤ c.rest.length) :
    (c.skip n).rest.length < c.rest.length := by
  show (c.rest.drop n).length < _
  rw [List.length_drop]
  omega

theorem length_skipComment_le (c : Cursor) : c.skipComment.rest.length ≤ c.rest.length := by
  unfold skipComment
  dsimp only
  split
  · exact Nat.le_trans (length_skip_le _ _) (length_skip_le _ _)
  · exact length_skip_le _ _

theorem breakLength_le (s : Text) : breakLength s ≤ s.length := by
  unfold breakLength
  split
  · simp
  · simp only [List.length_cons]
    split <;> omega
  · exact Nat.le_refl 0

theorem breakLength_pos {c : Char} {s : Text} (hc : isBreak c = true) :
    0 < breakLength (c :: s) := by
  unfold breakLength
  split
  · decide
  · next heq =>
    obtain ⟨rfl, -⟩ := List.cons.inj heq
    rw [if_pos hc]
    decide
  · next heq => exact nomatch heq

/-- a line break that is not cut in two has the same length in the longer text -/
theorem breakLength_append {s e : Text} (hs : s ≠ []) (hcr : s.getLast? ≠ some '\r') :
    breakLength (s ++ e) = breakLength s := by
  cases s with
  | nil => exact absurd rfl hs
  | cons c s =>
    cases s with
    | cons c' s =>
      by_cases hc : c = '\r' ∧ c' = '\n'
      · rw [hc.1, hc.2]
        rfl
      · have hplain : ∀ t, breakLength (c :: c' :: t) = if isBreak c then 1 else 0 := by
          intro t
          unfold breakLength
          split
          · next heq =>
            obtain ⟨h, ht⟩ := List.cons.inj heq
            exact absurd ⟨h, (List.cons.inj ht).1⟩ hc
          · next heq => rw [(List.cons.inj heq).1]
          · next heq => exact nomatch heq
        rw [List.cons_append, List.cons_append, hplain, hplain]
    | nil =>
      have hc : c ≠ '\r' := fun h => hcr (by rw [h]; rfl)
      have hplain : ∀ t, breakLength (c :: t) = if isBreak c then 1 else 0 := by
        intro t
        unfold breakLength
        split
        · next heq => exact absurd (List.cons.inj heq).1 hc
        · next heq => rw [(List.cons.inj heq).1]
        · next heq => exact nomatch heq
      rw [List.singleton_append, hplain, hplain]

theorem skipBreak_of_zero {c : Cursor} (h : breakLength c.rest = 0) : c.skipBreak = c := by
  unfold skipBreak
  rw [h]
  rfl

theorem skipBreak_of_pos {c : Cursor} (h : 0 < breakLength c.rest) :
    c.skipBreak = { rest := c.rest.drop (breakLength c.rest)
                    index := c.index + breakLength c.rest
                    line := c.line + 1
                    column := 0 } := by
  obtain ⟨n, hn⟩ := Nat.exists_eq_succ_of_ne_zero (Nat.ne_of_gt h)
  unfold skipBreak
  rw [hn]
  rfl

theorem rest_skipBreak (c : Cursor) : c.skipBreak.rest = c.rest.drop (breakLength c.rest) := by
  rcases Nat.eq_zero_or_pos (breakLength c.rest) with h | h
  · rw [skipBreak_of_zero h, h]
    rfl
  · rw [skipBreak_of_pos h]

theorem length_skipBreak_le (c : Cursor) : c.skipBreak.rest.length ≤ c.rest.length := by
  rw [rest_skipBreak, List.length_drop]
  omega

theorem length_skipBreak_lt {c : Cursor} (h : c.head?.any isBreak = true) :
    c.skipBreak.rest.length < c.rest.length := by
  rw [rest_skipBreak, List.length_drop]
  unfold head? at h
  cases hr : c.rest with
  | nil =>
    rw [hr] at h
    exact nomatch h
  | cons x s =>
    rw [hr] at h
    have hpos := breakLength_pos (s := s) h
    rw [List.length_cons]
    omega

namespace Follows
variable {e : Text} {c d : Cursor}

theorem nil (h : c.rest = []) (hd : Endings d.rest) : c.Follows e d where
  whole := by
    rw [h]
    exact nofun
  inside hc := absurd h hc
  atEnd _ := hd

theorem exists_rest (h : c.Follows e d) (he : Endings e) :
    ∃ e', Endings e' ∧ d.rest = c.rest ++ e' := by
  by_cases hc : c.rest = []
  · exact ⟨d.rest, h.atEnd hc, by rw [hc]; rfl⟩
  · exact ⟨e, he, by rw [h.inside hc]; rfl⟩

section
variable (h : c.Follows e d) (he : Endings e)
include h

theorem rest_cons {x : Char} {r : Text} (hc : c.rest = x :: r) : d.rest = x :: (r ++ e) := by
  rw [h.inside (by rw [hc]; exact List.cons_ne_nil x r)]
  show c.rest ++ e = _
  rw [hc]
  rfl

theorem length (hc : c.rest ≠ []) : d.rest.length = c.rest.length + e.length := by
  rw [h.inside hc]
  exact List.length_append

theorem column (hc : c.rest ≠ []) : d.column = c.column := by
  rw [h.inside hc]
  rfl

theorem head (hc : c.rest ≠ []) : d.head? = c.head? := by
  obtain ⟨x, r, hr⟩ := List.exists_cons_of_ne_nil hc
  unfold head?
  rw [h.rest_cons hr, hr]
  rfl

theorem breakText (hc : c.rest ≠ []) : d.breakText = c.breakText := by
  obtain ⟨x, r, hr⟩ := List.exists_cons_of_ne_nil hc
  unfold Cursor.breakText
  rw [h.rest_cons hr, hr]

include he

theorem length_le : c.rest.length ≤ d.rest.length := by
  obtain ⟨e', -, hd⟩ := h.exists_rest he
  rw [hd, List.length_append]
  exact Nat.le_add_right _ _

theorem takeWhile {p : Char → Bool} (hp : NoEnding p) :
    d.rest.takeWhile p = c.rest.takeWhile p := by
  obtain ⟨e', he', hd⟩ := h.exists_rest he
  rw [hd, takeWhile_endings he' hp]

theorem head_any {p : Char → Bool} (hp : NoEnding p) : d.head?.any p = c.head?.any p := by
  obtain ⟨e', he', hd⟩ := h.exists_rest he
  unfold head?
  rw [hd, head_any_endings he' hp]

theorem startsWith {x : Char} (hx : NoEnding (· == x)) : d.startsWith x = c.startsWith x := by
  have hany : ∀ o : Option Char, (o == some x) = o.any (· == x) := fun o => by cases o <;> rfl
  unfold Cursor.startsWith
  rw [hany, hany]
  exact h.head_any he hx

theorem atGap : Yaml.atGap d.rest = Yaml.atGap c.rest := by
  obtain ⟨e', he', hd⟩ := h.exists_rest he
  rw [hd, atGap_endings he']

theorem atLineEnd : Yaml.atLineEnd d.rest = Yaml.atLineEnd c.rest := by
  obtain ⟨e', he', hd⟩ := h.exists_rest he
  rw [hd, atLineEnd_endings he']

theorem skip {n : Nat} (hn : n ≤ c.rest.length) : (c.skip n).Follows e (d.skip n) := by
  by_cases hc : c.rest = []
  · exact .nil (by simp [Cursor.skip, hc]) ((h.atEnd hc).drop n)
  · have hskip : d.skip n = (c.skip n).extend e := by
      rw [h.inside hc]
      unfold Cursor.skip extend
      rw [List.drop_append_of_le_length hn]
    rw [hskip]
    exact follows_extend he (getLast_drop h.whole n)

theorem skipWhile {p : Char → Bool} (hp : NoEnding p) :
    (c.skipWhile p).Follows e (d.skipWhile p) := by
  unfold Cursor.skipWhile
  rw [h.takeWhile he hp]
  exact h.skip he (List.takeWhile_sublist p).length_le

theorem skip_of_startsWith {x : Char} (hx : c.startsWith x = true) :
    (c.skip 1).Follows e (d.skip 1) := h.skip he (length_pos_of_startsWith hx)

theorem skipBreak : c.skipBreak.Follows e d.skipBreak := by
  by_cases hc : c.rest = []
  · rw [skipBreak_of_zero (c := c) (by rw [hc]; rfl)]
    refine .nil hc ?_
    rw [rest_skipBreak]
    exact (h.atEnd hc).drop _
  · have hlen : breakLength d.rest = breakLength c.rest := by
      rw [h.inside hc]
      exact breakLength_append hc h.whole
    rcases Nat.eq_zero_or_pos (breakLength c.rest) with hn | hn
    · rw [skipBreak_of_zero hn, skipBreak_of_zero (hlen.trans hn)]
      exact h
    · have hskip : d.skipBreak = c.skipBreak.extend e := by
        rw [skipBreak_of_pos hn, skipBreak_of_pos (hlen ▸ hn), hlen, h.inside hc]
        unfold extend
        dsimp only
        rw [List.drop_append_of_le_length (breakLength_le c.rest)]
      rw [hskip]
      refine follows_extend he ?_
      rw [rest_skipBreak]
      exact getLast_drop h.whole _

theorem skipComment : c.skipComment.Follows e d.skipComment := by
  have hgap := h.skipWhile he (p := isGap) (by decide)
  unfold Cursor.skipComment
  dsimp only
  rw [hgap.startsWith he (by decide)]
  split
  · exact hgap.skipWhile he (by decide)
  · exact hgap

/-- a mark of documents is at the cursor in both texts or in none -/
theorem atMark {x : Char} (hx : x ≠ '\r' ∧ x ≠ '\n') : d.atMark x = c.atMark x := by
  have hmark : ∀ y ∈ [x, x, x], y ≠ '\r' ∧ y ≠ '\n' := by
    intro y hy
    obtain rfl : y = x := by simpa using hy
    exact hx
  unfold Cursor.atMark
  by_cases hc : c.rest = []
  · have hd := isPrefixOf_endings (h.atEnd hc) hmark []
    rw [List.nil_append] at hd
    rw [hd, hc]
    simp [List.isPrefixOf]
  · rw [h.inside hc]
    show (c.column == 0 && [x, x, x].isPrefixOf (c.rest ++ e) &&
      Yaml.atGap ((c.rest ++ e).drop 3)) = _
    rw [isPrefixOf_endings he hmark]
    cases hp : [x, x, x].isPrefixOf c.rest with
    | false => simp
    | true =>
      have hlen : 3 ≤ c.rest.length := (List.isPrefixOf_iff_prefix.1 hp).length_le
      rw [List.drop_append_of_le_length hlen, atGap_endings he]

theorem atDocumentMark : d.atDocumentMark = c.atDocumentMark := by
  unfold Cursor.atDocumentMark
  rw [h.atMark he (by decide), h.atMark he (by decide)]

end

end Follows

end Cursor

/-- a value and the cursor after it are read from both texts, and the shorter one has at most `n`
characters left -/
structure Reads {α : Type} (e : Text) (n : Nat) (p q : α × Cursor) : Prop where
  value : p.1 = q.1
  cursor : p.2.Follows e q.2
  length : p.2.rest.length ≤ n

/-- both readers stop here -/
theorem Cursor.Follows.stop {ε α : Type} {e : Text} {n : Nat} {c d : Cursor} (h : c.Follows e d)
    (a : α) (hn : c.rest.length ≤ n) : Alike (Reads e n) (.ok (a, c) : Except ε _) (.ok (a, d)) :=
  .ok ⟨rfl, h, hn⟩

end MarkdownModule.Yaml

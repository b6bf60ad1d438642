import MarkdownModule.Proofs.Yaml.Ending.Cursor
import MarkdownModule.Yaml.BlockScalar

/-!
# Block scalars before line endings

Line endings at the end of a text belong to a block scalar that reaches the end of the text, and its
head says whether they count.

* `Yaml.readBlockHead_alike`     the head of a block scalar
* `Yaml.readBlockScalar_alike`   a block scalar, which is the same unless it reaches the end of the
                                 shorter text and keeps line breaks there
-/

namespace MarkdownModule.Yaml

/-! ## heads -/

/-- what the characters after the first one say about a block scalar -/
def readBlockMarks (c : Cursor) : BlockHead × Cursor :=
  match chomping? c.head? with
  | some k =>
    match increment? (c.skip 1).head? with
    | some n => (⟨k, some n⟩, c.skip 2)
    | none => (⟨k, none⟩, c.skip 1)
  | none =>
    match increment? c.head? with
    | some n =>
      match chomping? (c.skip 1).head? with
      | some k => (⟨k, some n⟩, c.skip 2)
      | none => (⟨.clip, some n⟩, c.skip 1)
    | none => ({}, c)

theorem readBlockHead_eq (c : Cursor) :
    readBlockHead c =
      if (readBlockMarks c).1.increment = some 0 || !atLineEnd (readBlockMarks c).2.skipComment.rest
      then .error .malformedBlockHead
      else .ok ((readBlockMarks c).1, (readBlockMarks c).2.skipComment.skipBreak) := rfl

section
variable {e : Text} (he : Endings e)
include he

/-- no line ending says anything about a block scalar -/
theorem head_endings {α : Type} {f : Option Char → Option α} (hnone : f none = none)
    (hf : ∀ x, x = '\r' ∨ x = '\n' → f (some x) = none) {c d : Cursor} (h : c.Follows e d) :
    f d.head? = f c.head? ∧ ((f c.head?).isSome = true → 1 ≤ c.rest.length) := by
  obtain ⟨e', he', hd⟩ := h.exists_rest he
  unfold Cursor.head?
  rw [hd]
  cases c.rest with
  | cons x r => exact ⟨rfl, fun _ => Nat.le_add_left 1 _⟩
  | nil =>
    refine ⟨?_, fun hsome => ?_⟩
    · cases e' with
      | nil => rfl
      | cons y s => exact (hf y (endings_cons.1 he').1).trans hnone.symm
    · rw [List.head?_nil, hnone] at hsome
      exact nomatch hsome

theorem readBlockMarks_reads {k : Nat} {c d : Cursor} (h : c.Follows e d) (hk : c.rest.length ≤ k) :
    Reads e k (readBlockMarks c) (readBlockMarks d) := by
  have hchomping {c d : Cursor} (h : c.Follows e d) :=
    head_endings he (f := chomping?) rfl (by rintro x (rfl | rfl) <;> rfl) h
  have hincrement {c d : Cursor} (h : c.Follows e d) :=
    head_endings he (f := increment?) rfl (by rintro x (rfl | rfl) <;> rfl) h
  have hreads (a : BlockHead) {n : Nat} (hn : (c.skip n).Follows e (d.skip n)) :
      Reads e k (a, c.skip n) (a, d.skip n) := ⟨rfl, hn, Nat.le_trans (c.length_skip_le n) hk⟩
  have htwo (hone : (c.skip 1).Follows e (d.skip 1)) (hlen : 1 ≤ (c.skip 1).rest.length) :
      (c.skip 2).Follows e (d.skip 2) := by
    have hskip := hone.skip he hlen
    rwa [Cursor.skip_skip, Cursor.skip_skip] at hskip
  unfold readBlockMarks
  rw [(hchomping h).1, (hincrement h).1]
  cases hc : chomping? c.head? with
  | some x =>
    have hone := h.skip he ((hchomping h).2 (by rw [hc]; rfl))
    dsimp only
    rw [(hincrement hone).1]
    cases hi : increment? (c.skip 1).head? with
    | some n => exact hreads _ (htwo hone ((hincrement hone).2 (by rw [hi]; rfl)))
    | none => exact hreads _ hone
  | none =>
    cases hi : increment? c.head? with
    | some n =>
      have hone := h.skip he ((hincrement h).2 (by rw [hi]; rfl))
      dsimp only
      rw [(hchomping hone).1]
      cases hc' : chomping? (c.skip 1).head? with
      | some x => exact hreads _ (htwo hone ((hchomping hone).2 (by rw [hc']; rfl)))
      | none => exact hreads _ hone
    | none => exact ⟨rfl, h, hk⟩

theorem readBlockHead_alike {k : Nat} {c d : Cursor} (h : c.Follows e d) (hk : c.rest.length ≤ k) :
    Alike (Reads e k) (readBlockHead c) (readBlockHead d) := by
  have hmarks := readBlockMarks_reads he h hk
  have hcomment := hmarks.cursor.skipComment he
  rw [readBlockHead_eq, readBlockHead_eq, ← hmarks.value, hcomment.atLineEnd he]
  split
  · exact .error _ _
  · refine .ok ⟨rfl, hcomment.skipBreak he, ?_⟩
    exact Nat.le_trans (Cursor.length_skipBreak_le _)
      (Nat.le_trans (Cursor.length_skipComment_le _) hmarks.length)

end

/-! ## blank lines -/

/-- the blank lines and the cursor after the spaces of the line -/
def BlankLines.indent (indentation : Nat) (b : BlankLines) : BlankLines :=
  let spaces := (b.cursor.rest.takeWhile (· = ' ')).length
  let n := if indentation = 0 then spaces else min spaces (indentation - b.cursor.column)
  { b with widest := max b.widest (b.cursor.skip n).column, cursor := b.cursor.skip n }

/-- the blank lines from there on -/
def blankRest (indentation m : Nat) (s : BlankLines) : Except Error BlankLines :=
  if (indentation = 0 || s.cursor.column < indentation) && s.cursor.startsWith '\t' then
    .error .tabIndentation
  else if s.cursor.head?.any isBreak then
    readBlankLines indentation m
      { s with breaks := s.breaks ++ s.cursor.breakText, cursor := s.cursor.skipBreak }
  else .ok s

theorem readBlankLines_succ (indentation m : Nat) (b : BlankLines) :
    readBlankLines indentation (m + 1) b = blankRest indentation m (b.indent indentation) := rfl

theorem BlankLines.indent_endings {b : BlankLines} (indentation : Nat) (hb : Endings b.cursor.rest) :
    b.indent indentation = { b with widest := max b.widest b.cursor.column } := by
  have hspaces : b.cursor.rest.takeWhile (· = ' ') = [] := by
    have h := takeWhile_endings hb (p := (· = ' ')) (by decide) []
    rwa [List.nil_append] at h
  unfold BlankLines.indent
  rw [hspaces]
  simp [Cursor.skip]

/-- line endings are blank lines -/
theorem blankRest_endings (indentation : Nat) {m : Nat} {s : BlankLines}
    (hs : Endings s.cursor.rest) (hm : s.cursor.rest.length ≤ m) :
    ∃ b, blankRest indentation m s = .ok b ∧ b.cursor.rest = [] := by
  induction m generalizing s with
  | zero =>
    have hnil := List.length_eq_zero_iff.1 (Nat.le_zero.1 hm)
    unfold blankRest Cursor.head?
    rw [Cursor.startsWith_endings (by decide) hs, Bool.and_false, hnil]
    exact ⟨s, rfl, hnil⟩
  | succ m ih =>
    unfold blankRest
    rw [Cursor.startsWith_endings (by decide) hs, Bool.and_false, if_neg Bool.false_ne_true]
    split
    · next hbreak =>
      have hlt := Cursor.length_skipBreak_lt hbreak
      have hskip : Endings s.cursor.skipBreak.rest := by
        rw [Cursor.rest_skipBreak]
        exact hs.drop _
      rw [readBlankLines_succ, BlankLines.indent_endings indentation hskip]
      exact ih (s := {
        breaks := s.breaks ++ s.cursor.breakText
        widest := max s.widest s.cursor.skipBreak.column
        cursor := s.cursor.skipBreak }) hskip
        (by show s.cursor.skipBreak.rest.length ≤ m; omega)
    · next hbreak =>
      refine ⟨s, rfl, ?_⟩
      cases hr : s.cursor.rest with
      | nil => rfl
      | cons y r =>
        have hy := isBreak_of_ending (hs y (by rw [hr]; exact List.mem_cons_self))
        unfold Cursor.head? at hbreak
        rw [hr] at hbreak
        exact absurd hy hbreak

/-- blank lines as far as they are read from both texts, the same unless they reach the end -/
structure Blanks (e : Text) (b b' : BlankLines) : Prop where
  same : b.cursor.rest ≠ [] → b.breaks = b'.breaks ∧ b.widest = b'.widest
  cursor : b.cursor.Follows e b'.cursor

theorem blanks_start {e : Text} {c d : Cursor} (h : c.Follows e d) :
    Blanks e { cursor := c } { cursor := d } := ⟨fun _ => ⟨rfl, rfl⟩, h⟩

section
variable {e : Text} (he : Endings e)
include he

theorem Blanks.indent {b b' : BlankLines} (h : Blanks e b b') (indentation : Nat) :
    Blanks e (b.indent indentation) (b'.indent indentation) := by
  by_cases hb : b.cursor.rest = []
  · rw [b.indent_endings indentation (hb ▸ endings_nil),
      b'.indent_endings indentation (h.cursor.atEnd hb)]
    exact ⟨fun hne => absurd hb hne, h.cursor⟩
  · obtain ⟨hbreaks, hwidest⟩ := h.same hb
    have hspaces := h.cursor.takeWhile he (p := (· = ' ')) (by decide)
    unfold BlankLines.indent
    rw [hspaces, h.cursor.column hb]
    refine ⟨fun _ => ⟨hbreaks, ?_⟩, h.cursor.skip he ?_⟩
    · show max b.widest (b.cursor.column + _) = max b'.widest (b'.cursor.column + _)
      rw [hwidest, h.cursor.column hb]
    · have hle := (List.takeWhile_sublist (l := b.cursor.rest) (· = ' ')).length_le
      split
      · exact hle
      · exact Nat.le_trans (Nat.min_le_left _ _) hle

theorem readBlankLines_alike (indentation : Nat) {n m k : Nat} {b b' : BlankLines}
    (h : Blanks e b b') (hn : b.cursor.rest.length < n) (hm : b'.cursor.rest.length < m)
    (hk : b.cursor.rest.length ≤ k) :
    Alike (fun r r' => Blanks e r r' ∧ (r.cursor.rest = [] → r'.cursor.rest = []) ∧
        r.cursor.rest.length ≤ k)
      (readBlankLines indentation n b) (readBlankLines indentation m b') := by
  induction n generalizing m b b' with
  | zero => exact absurd hn (Nat.not_lt_zero _)
  | succ n ih =>
    obtain ⟨m, rfl⟩ := Nat.exists_eq_succ_of_ne_zero (Nat.ne_of_gt (Nat.zero_lt_of_lt hm))
    have hs := h.indent he indentation
    have hlen : (b.indent indentation).cursor.rest.length ≤ b.cursor.rest.length :=
      Cursor.length_skip_le _ _
    have hlen' : (b'.indent indentation).cursor.rest.length ≤ b'.cursor.rest.length :=
      Cursor.length_skip_le _ _
    rw [readBlankLines_succ, readBlankLines_succ]
    generalize b.indent indentation = s at hs hlen ⊢
    generalize b'.indent indentation = s' at hs hlen' ⊢
    by_cases hc : s.cursor.rest = []
    · obtain ⟨r, hread, hnil⟩ :=
        blankRest_endings indentation (hs.cursor.atEnd hc) (m := m) (by omega)
      have hleft : blankRest indentation n s = .ok s := by
        unfold blankRest Cursor.head?
        rw [Cursor.startsWith_endings (by decide) (hc ▸ endings_nil), Bool.and_false, hc]
        rfl
      rw [hleft, hread]
      refine .ok ⟨⟨fun hne => absurd hc hne, ?_⟩, fun _ => hnil, Nat.le_trans hlen hk⟩
      exact .nil hc (hnil ▸ endings_nil)
    · obtain ⟨hbreaks, hwidest⟩ := hs.same hc
      unfold blankRest
      rw [hs.cursor.column hc, hs.cursor.startsWith he (by decide), hs.cursor.head hc]
      split
      · exact .error _ _
      · split
        · next hbreak =>
          have hlt := Cursor.length_skipBreak_lt hbreak
          have hlt' := Cursor.length_skipBreak_lt ((hs.cursor.head hc).symm ▸ hbreak)
          refine ih ⟨fun _ => ⟨?_, hwidest⟩, hs.cursor.skipBreak he⟩ ?_ ?_ ?_
          · show s.breaks ++ _ = s'.breaks ++ _
            rw [hbreaks, hs.cursor.breakText hc]
          · show s.cursor.skipBreak.rest.length < n
            omega
          · show s'.cursor.skipBreak.rest.length < m
            omega
          · show s.cursor.skipBreak.rest.length ≤ k
            omega
        · exact .ok ⟨hs, fun hnil => absurd hnil hc, Nat.le_trans hlen hk⟩

end

/-! ## lines -/

/-- the lines of a block scalar as far as they are read from both texts; the line breaks after them
are the same unless they reach the end -/
structure Lines (e : Text) (b b' : BlockLines) : Prop where
  text : b.text = b'.text
  same : b.cursor.rest ≠ [] → b.lastBreak = b'.lastBreak ∧ b.breaks = b'.breaks ∧ b.gapped = b'.gapped
  cursor : b.cursor.Follows e b'.cursor
  atEnd : b.cursor.rest = [] → b'.cursor.rest = []

theorem readBlockLines_nil (literal : Bool) (indentation n : Nat) {b : BlockLines}
    (hb : b.cursor.rest = []) : readBlockLines literal indentation n b = .ok b := by
  cases n with
  | zero => rfl
  | succ n =>
    unfold readBlockLines
    rw [hb, List.isEmpty_nil, Bool.or_true]
    rfl

/-- a line and the break after it are some characters -/
theorem length_line_lt {c : Cursor} (hc : c.rest ≠ []) :
    (c.skip (c.rest.takeWhile (!isBreak ·)).length).skipBreak.rest.length < c.rest.length := by
  obtain ⟨x, r, hr⟩ := List.exists_cons_of_ne_nil hc
  by_cases hx : isBreak x = true
  · have hline : c.rest.takeWhile (!isBreak ·) = [] := by
      rw [hr, List.takeWhile_cons_of_neg (by simp [hx])]
    have hskip : c.skip 0 = c := rfl
    rw [hline, List.length_nil, hskip]
    refine Cursor.length_skipBreak_lt ?_
    unfold Cursor.head?
    rw [hr]
    exact hx
  · refine Nat.lt_of_le_of_lt (Cursor.length_skipBreak_le _) (Cursor.length_skip_lt ?_
      (List.takeWhile_sublist _).length_le)
    rw [hr, List.takeWhile_cons_of_pos (by simp [hx])]
    exact Nat.zero_lt_succ _

section
variable {e : Text} (he : Endings e)
include he

theorem readBlockLines_alike (literal : Bool) (indentation : Nat) {n m k : Nat} {b b' : BlockLines}
    (h : Lines e b b') (hn : b.cursor.rest.length < n) (hm : b'.cursor.rest.length < m)
    (hk : b.cursor.rest.length ≤ k) :
    Alike (fun r r' => Lines e r r' ∧ r.cursor.rest.length ≤ k)
      (readBlockLines literal indentation n b) (readBlockLines literal indentation m b') := by
  induction n generalizing m b b' with
  | zero => exact absurd hn (Nat.not_lt_zero _)
  | succ n ih =>
    obtain ⟨m, rfl⟩ := Nat.exists_eq_succ_of_ne_zero (Nat.ne_of_gt (Nat.zero_lt_of_lt hm))
    by_cases hb : b.cursor.rest = []
    · rw [readBlockLines_nil literal indentation _ hb,
        readBlockLines_nil literal indentation _ (h.atEnd hb)]
      exact .ok ⟨h, hk⟩
    · obtain ⟨hlast, hbreaks, hgapped⟩ := h.same hb
      have hb' : b'.cursor.rest ≠ [] := by
        rw [h.cursor.inside hb]
        exact List.append_ne_nil_of_left_ne_nil hb e
      have hjoint (gap : Bool) : b'.joint literal gap = b.joint literal gap := by
        unfold BlockLines.joint
        rw [hlast, hbreaks, hgapped]
      have hskip := h.cursor.skip he (n := (b.cursor.rest.takeWhile (!isBreak ·)).length)
        (List.takeWhile_sublist _).length_le
      unfold readBlockLines
      rw [h.cursor.column hb, List.isEmpty_eq_false_iff.2 hb, List.isEmpty_eq_false_iff.2 hb']
      split
      · exact .ok ⟨h, hk⟩
      · dsimp only
        rw [h.cursor.head_any he (by decide), h.cursor.takeWhile he (by decide), hjoint, ← h.text]
        have hlt := length_line_lt hb
        generalize (b.cursor.rest.takeWhile (!isBreak ·)).length = i at hskip hlt ⊢
        refine (readBlankLines_alike he indentation (blanks_start (hskip.skipBreak he))
          (Nat.lt_succ_of_le (b.cursor.skip i).length_skipBreak_le)
          (Nat.lt_succ_of_le (b'.cursor.skip i).length_skipBreak_le) (Nat.le_refl _)).bind ?_
        rintro blank blank' ⟨hblank, hend, hlen⟩
        have hshort : blank.cursor.rest.length < b.cursor.rest.length := Nat.lt_of_le_of_lt hlen hlt
        refine ih ⟨rfl, fun hne => ⟨?_, (hblank.same hne).1, rfl⟩, hblank.cursor, hend⟩ ?_ ?_ ?_
        · have hle := Nat.le_trans hlen (b.cursor.skip i).length_skipBreak_le
          exact (hskip.breakText fun hnil => hne (Cursor.rest_eq_nil hle hnil)).symm
        · show blank.cursor.rest.length < n
          omega
        · show blank'.cursor.rest.length < m
          have hlong := h.cursor.length hb
          have hpos := List.length_pos_iff.2 hb'
          by_cases hnil : blank.cursor.rest = []
          · rw [hend hnil, List.length_nil]
            omega
          · have hlong' := hblank.cursor.length hnil
            omega
        · show blank.cursor.rest.length ≤ k
          omega

end

/-! ## block scalars -/

/-- whether the line breaks at the end of a block scalar with this head count -/
def countsBreaks (c : Cursor) : Bool :=
  match readBlockHead c with
  | .ok (⟨.strip, _⟩, _) => false
  | .ok _ => true
  | .error _ => false

theorem countsBreaks_of_head {c c' : Cursor} {h : BlockHead} (hc : readBlockHead c = .ok (h, c'))
    (hcounts : countsBreaks c = false) : h.chomping = .strip := by
  unfold countsBreaks at hcounts
  rw [hc] at hcounts
  obtain ⟨chomping, increment⟩ := h
  cases chomping with
  | strip => rfl
  | clip => exact nomatch hcounts
  | keep => exact nomatch hcounts

section
variable {e : Text} (he : Endings e)
include he

theorem readBlockScalar_alike (literal : Bool) (around : Int) {k : Nat} {c d : Cursor}
    (h : c.Follows e d) (hk : c.rest.length ≤ k) :
    Alike (fun p q : Text × Cursor => p.2.Follows e q.2 ∧ p.2.rest.length ≤ k ∧
        ((p.2.rest = [] → countsBreaks c = false) → p.1 = q.1))
      (readBlockScalar literal around c) (readBlockScalar literal around d) := by
  unfold readBlockScalar
  refine (readBlockHead_alike he h hk).of_fst.bind ?_
  rintro ⟨head, c₁⟩ ⟨head', d₁⟩ ⟨hr, hc⟩
  obtain rfl : head = head' := hr.value
  have hcd : c₁.Follows e d₁ := hr.cursor
  dsimp only
  generalize (head.increment.map fun n => (max 0 around).toNat + n).getD 0 = given
  refine (readBlankLines_alike he given (blanks_start hcd) (Nat.lt_succ_self _) (Nat.lt_succ_self _) (Nat.le_refl _)).bind ?_
  rintro blank blank' ⟨hblank, hend, hlen⟩
  have hlen : blank.cursor.rest.length ≤ c₁.rest.length := hlen
  have hlines : Lines e { breaks := blank.breaks, cursor := blank.cursor }
      { breaks := blank'.breaks, cursor := blank'.cursor } :=
    ⟨rfl, fun hne => ⟨rfl, (hblank.same hne).1, rfl⟩, hblank.cursor, hend⟩
  have hk' : blank.cursor.rest.length ≤ k := Nat.le_trans hlen hr.length
  have hread : Alike (fun r r' => Lines e r r' ∧ r.cursor.rest.length ≤ k)
      (readBlockLines literal
        (if given = 0 then max (max blank.widest (around + 1).toNat) 1 else given)
        (c₁.rest.length + 1) { breaks := blank.breaks, cursor := blank.cursor })
      (readBlockLines literal
        (if given = 0 then max (max blank'.widest (around + 1).toNat) 1 else given)
        (d₁.rest.length + 1) { breaks := blank'.breaks, cursor := blank'.cursor }) := by
    by_cases hnil : blank.cursor.rest = []
    · rw [readBlockLines_nil _ _ _ hnil, readBlockLines_nil _ _ _ (hend hnil)]
      exact .ok ⟨hlines, hk'⟩
    · have hc₁ : c₁.rest ≠ [] := fun h => hnil (Cursor.rest_eq_nil hlen h)
      have hlong := hcd.length hc₁
      have hlong' := hblank.cursor.length hnil
      rw [(hblank.same hnil).2]
      refine readBlockLines_alike he literal _ hlines ?_ ?_ hk'
      · show blank.cursor.rest.length < _
        omega
      · show blank'.cursor.rest.length < _
        omega
  refine hread.bind ?_
  rintro b b' ⟨hb, hbk⟩
  refine .ok ⟨hb.cursor, hbk, fun hcounts => ?_⟩
  show b.text ++ _ = b'.text ++ _
  rw [hb.text]
  by_cases hnil : b.cursor.rest = []
  · have hstrip : head.chomping = .strip := countsBreaks_of_head hc (hcounts hnil)
    rw [hstrip]
  · obtain ⟨hlast, hbreaks, -⟩ := hb.same hnil
    rw [hlast, hbreaks]

end

end MarkdownModule.Yaml

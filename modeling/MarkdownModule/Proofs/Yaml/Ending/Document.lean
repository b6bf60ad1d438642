import MarkdownModule.Proofs.Yaml.Ending.Reader
import MarkdownModule.Yaml.Load

/-!
# The value of a text with line endings after it

* `Yaml.endsInScalar`        whether the last token of a text is a scalar whose line breaks count
* `Yaml.Reader.Follows.all`  otherwise both texts are cut into tokens of the same document
* `Yaml.load_alike`          and have the same value
* `Yaml.load_gaps`           a text of spaces and line breaks is null
-/

namespace MarkdownModule.Yaml

namespace Reader

/-! ## the next token -/

/-- the reader at the next token -/
def ahead (r : Reader) : Reader := r.skipGaps (r.cursor.rest.length + 1)

/-- the reader without the keys and the blocks that do not reach the cursor -/
def settle (r : Reader) : Except Error Reader := do
  let keys ← dropStale r.cursor r.keys
  .ok (Reader.closeTo { r with keys := keys } r.cursor.column)

def finish (r : Reader) : Except Error (List Token) := do
  let r ← (r.closeTo (-1)).dropKey
  .ok r.tokens

/-- the reader after the token at the cursor, or all tokens -/
def step (r : Reader) : Except Error (Reader ⊕ List Token) :=
  match r.cursor.rest with
  | [] => r.finish.map .inr
  | c :: rest => (r.token c rest).map .inl

theorem settle_bind {α : Type} (r : Reader) (f : Reader → Except Error α) :
    r.settle >>= f = dropStale r.cursor r.keys >>= fun ks =>
      f (Reader.closeTo { r with keys := ks } r.cursor.column) := by
  unfold settle
  cases dropStale r.cursor r.keys <;> rfl

theorem next_eq (r : Reader) : r.next = r.ahead.settle >>= step := by
  have hfinish : ∀ a : Reader, (a.finish.map .inr : Except Error (Reader ⊕ List Token)) =
      (a.closeTo (-1)).dropKey >>= fun b => .ok (.inr b.tokens) := by
    intro a
    unfold finish
    cases (a.closeTo (-1)).dropKey <;> rfl
  rw [settle_bind]
  unfold step
  simp only [hfinish]
  rfl

theorem cursor_closeTo (r : Reader) (column : Int) : (r.closeTo column).cursor = r.cursor :=
  (closeTo_keeps r [] column).cursor

theorem next_of_end {r : Reader} (hr : r.ahead.cursor.rest = []) :
    r.next = (r.ahead.settle >>= finish).map .inr := by
  rw [next_eq, settle_bind, settle_bind]
  cases dropStale r.ahead.cursor r.ahead.keys with
  | error _ => rfl
  | ok ks =>
    have hrest := congrArg Cursor.rest
      (cursor_closeTo { r.ahead with keys := ks } r.ahead.cursor.column)
    change step (Reader.closeTo { r.ahead with keys := ks } r.ahead.cursor.column) = _
    unfold step
    rw [hrest, hr]
    rfl

theorem settle_keeps (r : Reader) (e : Text) : Alike (Keeps e r) r.settle (r.extend e).settle := by
  have hstale : ∀ ks, dropStale (r.extend e).cursor ks = dropStale r.cursor ks := by
    intro ks
    induction ks with
    | nil => rfl
    | cons k ks ih =>
      cases k with
      | none => exact congrArg _ ih
      | some k =>
        unfold dropStale
        rw [ih]
        rfl
  unfold settle
  rw [hstale]
  refine (Alike.refl (dropStale r.cursor r.keys)).bind ?_
  rintro ks _ rfl
  exact .ok ((closeTo_keeps { r with keys := ks } e r.cursor.column).trans rfl rfl)

/-! ## the end of the text -/

/-- the blocks that end at a column end before the start of the line too -/
theorem closeBlocks_closeBlocks {column i : Int} (hc : -1 ≤ column) {indentation : Int}
    {outer os : List Int} {n : Nat} (h : closeBlocks column indentation outer = (i, os, n)) :
    closeBlocks (-1) indentation outer =
      ((closeBlocks (-1) i os).1, (closeBlocks (-1) i os).2.1,
        n + (closeBlocks (-1) i os).2.2) := by
  induction outer generalizing indentation n with
  | nil =>
    obtain ⟨rfl, hos⟩ := Prod.mk.inj h
    obtain ⟨rfl, rfl⟩ := Prod.mk.inj hos
    rfl
  | cons o outer ih =>
    by_cases hlt : column < indentation
    · have hclose : ∀ c : Int, c < indentation → closeBlocks c indentation (o :: outer) =
          ((closeBlocks c o outer).1, (closeBlocks c o outer).2.1,
            (closeBlocks c o outer).2.2 + 1) := fun c hc => if_pos hc
      rw [hclose column hlt] at h
      obtain ⟨rfl, hos⟩ := Prod.mk.inj h
      obtain ⟨rfl, rfl⟩ := Prod.mk.inj hos
      rw [hclose (-1) (by omega), ih rfl, Nat.add_right_comm]
    · have hstay : closeBlocks column indentation (o :: outer) = (indentation, o :: outer, 0) :=
        if_neg hlt
      rw [hstay] at h
      obtain ⟨rfl, hos⟩ := Prod.mk.inj h
      obtain ⟨rfl, rfl⟩ := Prod.mk.inj hos
      rw [Nat.zero_add]

theorem closeTo_closeTo (r : Reader) {column : Int} (hc : -1 ≤ column) :
    (r.closeTo column).closeTo (-1) = r.closeTo (-1) := by
  by_cases hflow : r.inFlow = true
  · have hstay : ∀ c, r.closeTo c = r := fun c => if_pos hflow
    rw [hstay, hstay]
  · have hclose : ∀ (a : Reader) (c : Int), ¬ a.inFlow = true → a.closeTo c =
        { a with
          indentation := (closeBlocks c a.indentation a.outer).1
          outer := (closeBlocks c a.indentation a.outer).2.1
          tokens := a.tokens ++
            List.replicate (closeBlocks c a.indentation a.outer).2.2 .blockEnd } :=
      fun a c ha => if_neg ha
    have hinFlow : ¬ (r.closeTo column).inFlow = true := by
      rw [(closeTo_keeps r [] column).inFlow]
      exact hflow
    rw [hclose _ (-1) hinFlow, hclose r (-1) hflow, hclose r column hflow]
    dsimp only
    rw [closeBlocks_closeBlocks hc (rfl : closeBlocks column r.indentation r.outer = _),
      List.append_assoc, List.replicate_append_replicate]

/-- the blocks that end do not depend on the cursor or on the keys -/
theorem closeTo_with (r : Reader) (c : Cursor) (b : Bool) (ks : List (Option KeyPlace))
    (column : Int) : Reader.closeTo { r with cursor := c, keyAllowed := b, keys := ks } column =
      { r.closeTo column with cursor := c, keyAllowed := b, keys := ks } := by
  have hflow : Reader.inFlow { r with cursor := c, keyAllowed := b, keys := ks } = r.inFlow := rfl
  unfold closeTo
  rw [hflow]
  split <;> rfl

theorem finish_closeTo (r : Reader) {column : Int} (hc : -1 ≤ column) :
    (r.closeTo column).finish = r.finish := by
  unfold finish
  rw [closeTo_closeTo r hc]

/-- outside of brackets, a text ends well if no key must begin at the place that is kept in mind -/
theorem finish_eq (r : Reader) : r.finish =
    if r.keyPlace.any (·.required) then .error .missingColon else .ok (r.closeTo (-1)).tokens := by
  have hplace : (r.closeTo (-1)).keyPlace = r.keyPlace := by
    unfold closeTo
    split <;> rfl
  unfold finish dropKey
  rw [hplace]
  cases r.keyPlace with
  | none => rfl
  | some k =>
    dsimp only [Option.any_some]
    split <;> rfl

/-- at the end of a text it does not matter on which line the key would have begun -/
theorem settle_finish {r : Reader} {k : Option KeyPlace} (hkeys : r.keys = [k]) :
    r.settle >>= finish =
      if k.any (·.required) then .error .missingColon else .ok (r.closeTo (-1)).tokens := by
  have hfinish : ∀ k' : Option KeyPlace,
      finish (Reader.closeTo { r with keys := [k'] } r.cursor.column) =
        if k'.any (·.required) then .error .missingColon else .ok (r.closeTo (-1)).tokens := by
    intro k'
    rw [finish_closeTo _ (by omega), finish_eq, closeTo_with r r.cursor r.keyAllowed]
    rfl
  rw [settle_bind, hkeys]
  cases k with
  | none => exact hfinish none
  | some p =>
    have hdrop : dropStale r.cursor [some p] = if isStale r.cursor p then
        if p.required then .error .missingColon else .ok [none] else .ok [some p] := rfl
    have hsome : (some p).any (·.required) = p.required := rfl
    rw [hdrop]
    by_cases hstale : isStale r.cursor p = true
    · rw [if_pos hstale, hsome]
      by_cases hrequired : p.required = true
      · rw [if_pos hrequired, if_pos hrequired]
        rfl
      · rw [if_neg hrequired, if_neg hrequired]
        exact hfinish none
    · rw [if_neg hstale]
      exact hfinish (some p)

/-- a text with an open bracket is no document -/
theorem settle_finish_inFlow {r : Reader} (hb : r.Bracketed) (hflow : 0 < r.flowDepth) :
    ∃ err, (r.settle >>= finish) >>= Node.ofTokens = .error err := by
  have htokens : Ensures (fun ts => nesting 0 ts = r.flowDepth) (r.settle >>= finish) := by
    rw [settle_bind]
    refine (Ensures.trivial (dropStale r.cursor r.keys)).bind fun ks _ => ?_
    have hstay : ∀ a : Reader, a.flowDepth = r.flowDepth → ∀ c, a.closeTo c = a := by
      intro a ha c
      exact if_pos (decide_eq_true (ha ▸ hflow))
    rw [hstay { r with keys := ks } rfl, finish_eq, hstay { r with keys := ks } rfl]
    exact .ite (fun _ => .error _) fun _ => .ok hb.tokens
  cases hts : r.settle >>= finish with
  | error err => exact ⟨err, rfl⟩
  | ok ts =>
    change ∃ err, Node.ofTokens ts = .error err
    cases hn : Node.ofTokens ts with
    | error err => exact ⟨err, rfl⟩
    | ok n =>
      have hzero := Node.nesting_ofTokens hn
      rw [htokens ts hts] at hzero
      exact absurd hflow (Nat.not_lt.2 (Nat.le_of_eq hzero))

/-- **The ends of both texts are read as the same document.** -/
theorem finish_alike {r s : Reader} (hb : r.Bracketed)
    (hs : s = { r with cursor := s.cursor, keyAllowed := s.keyAllowed }) :
    Alike Eq ((r.settle >>= finish) >>= Node.ofTokens) ((s.settle >>= finish) >>= Node.ofTokens) := by
  have hkeys : s.keys = r.keys := by rw [hs]
  have hdepth : s.flowDepth = r.flowDepth := by rw [hs]
  have htokens : s.tokens = r.tokens := by rw [hs]
  rcases Nat.eq_zero_or_pos r.flowDepth with hflow | hflow
  · obtain ⟨k, hk⟩ := List.length_eq_one_iff.1 (hb.keys.trans (congrArg (· + 1) hflow))
    have hclose : (s.closeTo (-1)).tokens = (r.closeTo (-1)).tokens := by
      rw [hs, closeTo_with r s.cursor s.keyAllowed r.keys]
    rw [settle_finish hk, settle_finish (hkeys.trans hk), hclose]
    exact .refl _
  · obtain ⟨err, hr⟩ := settle_finish_inFlow hb hflow
    have hbs : s.Bracketed :=
      ⟨by rw [hkeys, hdepth]; exact hb.keys, by rw [htokens, hdepth]; exact hb.tokens⟩
    obtain ⟨err', hs⟩ := settle_finish_inFlow hbs (hdepth ▸ hflow)
    rw [hr, hs]
    exact .error err err'

/-! ## all tokens -/

/-- whether the last token from a reader on is a literal or a folded scalar, and the line breaks at
its end count -/
def endsInScalar : Nat → Reader → Bool
  | 0, _ => false
  | fuel + 1, r =>
    match r.next with
    | .ok (.inl a) =>
      (a.cursor.rest.isEmpty && startsScalar r.ahead.cursor) || endsInScalar fuel a
    | _ => false

theorem all_succ (n : Nat) (r : Reader) : r.all (n + 1) = r.next >>= fun
    | .inl a => a.all n
    | .inr ts => .ok ts := rfl

section
variable {e : Text} (he : Endings e)
include he

/-- both readers go on to a token and read it -/
theorem Follows.next {k : Nat} {r s : Reader} (h : r.Follows e s) (hr : r.ahead.cursor.rest ≠ [])
    (hk : r.cursor.rest.length ≤ k + 1) :
    Alike (fun x y => ∃ a b, x = .inl a ∧ y = .inl b ∧ Advances e k (startsScalar r.ahead.cursor) a b)
      r.next s.next := by
  obtain ⟨hahead, -⟩ := h.skipGaps he (Nat.lt_succ_self _) (Nat.lt_succ_self _)
  have hs : s.ahead = r.ahead.extend e := hahead.eq_extend hr
  have hready : r.ahead.Ready k :=
    ⟨hahead.cursor.whole, hr, Nat.le_trans (length_skipGaps_le _ r) hk⟩
  rw [next_eq, next_eq, hs]
  refine (settle_keeps r.ahead e).bind ?_
  rintro a b ⟨rfl, ha, -⟩
  obtain ⟨c, rest, hrest⟩ := List.exists_cons_of_ne_nil hr
  have harest : a.cursor.rest = c :: rest := ha ▸ hrest
  have hbrest : (a.extend e).cursor.rest = c :: (rest ++ e) := congrArg (· ++ e) harest
  unfold step
  rw [harest, hbrest, ← ha]
  refine ((hready.of_cursor ha).token he harest).map ?_
  intro a' b' hadv
  exact ⟨a', b', rfl, rfl, hadv⟩

/-- **Line endings at the end of a text do not change the document, unless its last token is a scalar
whose line breaks count.**  Every token takes some of the shorter text, so that its length bounds the
fuel of both readers. -/
theorem Follows.all {n m : Nat} {r s : Reader} (h : r.Follows e s) (hb : r.Bracketed)
    (hn : r.cursor.rest.length < n) (hm : r.cursor.rest.length < m)
    (hends : r.endsInScalar n = false) :
    Alike Eq (r.all n >>= Node.ofTokens) (s.all m >>= Node.ofTokens) := by
  induction n generalizing r s m with
  | zero => exact absurd hn (Nat.not_lt_zero _)
  | succ n ih =>
    obtain ⟨m, rfl⟩ := Nat.exists_eq_succ_of_ne_zero (Nat.ne_of_gt (Nat.zero_lt_of_lt hm))
    rw [all_succ, all_succ]
    by_cases hr : r.ahead.cursor.rest = []
    · obtain ⟨hahead, hend⟩ := h.skipGaps he (Nat.lt_succ_self _) (Nat.lt_succ_self _)
      have hall : ∀ {x : Except Error (List Token)} {f : Reader ⊕ List Token → Except Error _},
          (∀ ts, f (.inr ts) = .ok ts) → x.map .inr >>= f = x := by
        intro x f hf
        cases x with
        | error _ => rfl
        | ok ts => exact hf ts
      rw [next_of_end hr, next_of_end (hend hr), hall fun _ => rfl, hall fun _ => rfl]
      exact finish_alike (hb.skipGaps _) hahead.state
    · have hpos : 0 < r.cursor.rest.length :=
        Nat.lt_of_lt_of_le (List.length_pos_iff.2 hr) (length_skipGaps_le _ r)
      have hnext := h.next he hr (Nat.le_of_eq (Nat.sub_add_cancel hpos).symm)
      unfold endsInScalar at hends
      have hbnext := hb.next
      generalize r.next = x at hnext hends hbnext
      generalize s.next = y at hnext
      cases hnext with
      | error _ _ => exact .error _ _
      | ok hab =>
        obtain ⟨a, b, rfl, rfl, hadv⟩ := hab
        obtain ⟨hlast, hends⟩ := Bool.or_eq_false_iff.1 hends
        have hlen := hadv.length
        refine ih (hadv.follows ?_) (hbnext _ rfl a rfl) (by omega) (by omega) hends
        intro hend
        rw [hend] at hlast
        exact hlast

end

end Reader

/-! ## texts -/

def endsInScalar (t : Text) : Bool := Reader.endsInScalar (t.length + 1) { cursor := { rest := t } }

section
variable {e : Text} (he : Endings e)
include he

theorem all_isAllowed_endings (t : Text) : (t ++ e).all isAllowed = t.all isAllowed := by
  have hall : e.all isAllowed = true := by
    rw [List.all_eq_true]
    intro c hc
    rcases he c hc with rfl | rfl <;> rfl
  rw [List.all_append, hall, Bool.and_true]

theorem tokens_alike {t : Text} (ht : t.getLast? ≠ some '\r') (hends : endsInScalar t = false) :
    Alike Eq (tokens t >>= Node.ofTokens) (tokens (t ++ e) >>= Node.ofTokens) := by
  unfold tokens
  rw [all_isAllowed_endings he]
  split
  · have hfollows : Reader.Follows e { cursor := { rest := t } } { cursor := { rest := t ++ e } } :=
      ⟨rfl, Cursor.follows_extend he ht, fun _ => rfl⟩
    refine hfollows.all he ⟨rfl, rfl⟩ (Nat.lt_succ_self _) ?_ hends
    show t.length < (t ++ e).length + 1
    rw [List.length_append]
    omega
  · exact .error _ _

/-- **Line endings at the end of a text do not change its value, unless it ends in a literal or a
folded scalar whose line breaks count.** -/
theorem load_alike {t : Text} (ht : t.getLast? ≠ some '\r') (hends : endsInScalar t = false) :
    Alike Eq (load t) (load (t ++ e)) := by
  have hload : ∀ s, load s = (tokens s >>= Node.ofTokens) >>= fun n =>
      resolve {} n >>= fun p => value p.2 maxDepth 0 p.1 >>= fun q => .ok q.1 := by
    intro s
    unfold load
    cases tokens s <;> rfl
  rw [hload, hload]
  refine (tokens_alike he ht hends).bind ?_
  rintro n _ rfl
  exact .refl _

end

/-! ## texts that say nothing -/

def Gaps (t : Text) : Prop := ∀ c ∈ t, c = ' ' ∨ isBreak c = true

theorem Gaps.startsWith {c : Cursor} (h : Gaps c.rest) {x : Char} (hx : x ≠ ' ')
    (hbreak : isBreak x = false) : c.startsWith x = false := by
  unfold Cursor.startsWith
  rw [beq_eq_false_iff_ne]
  intro hhead
  rcases h x (List.mem_of_mem_head? hhead) with hspace | hend
  · exact hx hspace
  · rw [hbreak] at hend
    exact nomatch hend

/-- what is left does not begin with a character that is skipped -/
theorem head_drop_takeWhile {p : Char → Bool} {s : Text} {x : Char}
    (h : (s.drop (s.takeWhile p).length).head? = some x) : p x = false := by
  induction s with
  | nil => exact nomatch h
  | cons c s ih =>
    by_cases hc : p c = true
    · rw [List.takeWhile_cons_of_pos hc] at h
      exact ih h
    · rw [List.takeWhile_cons_of_neg hc] at h
      rw [← Option.some.inj h]
      exact Bool.eq_false_iff.2 hc

namespace Reader

theorem afterGaps_gaps {r : Reader} (h : Gaps r.cursor.rest) :
    r.afterGaps = r.cursor.skipWhile r.skipsGap := by
  have hmark : skipMark r.cursor = r.cursor := by
    unfold skipMark
    rw [h.startsWith (by decide) (by decide), Bool.and_false]
    rfl
  have hgaps : Gaps (r.cursor.skipWhile r.skipsGap).rest := fun c hc =>
    h c (List.mem_of_mem_drop hc)
  unfold afterGaps skipRemark
  rw [hmark, hgaps.startsWith (by decide) (by decide)]
  rfl

theorem rest_skipGaps_gaps {n : Nat} {r : Reader} (h : Gaps r.cursor.rest)
    (hn : r.cursor.rest.length < n) : (r.skipGaps n).cursor.rest = [] := by
  induction n generalizing r with
  | zero => exact absurd hn (Nat.not_lt_zero _)
  | succ n ih =>
    have hgaps : Gaps r.afterGaps.rest := by
      rw [afterGaps_gaps h]
      exact fun c hc => h c (List.mem_of_mem_drop hc)
    have hle := length_afterGaps_le r
    rw [skipGaps_succ]
    split
    · next hbreak =>
      have hlt := Cursor.length_skipBreak_lt hbreak
      refine ih ?_ (show r.afterGaps.skipBreak.rest.length < n by omega)
      show Gaps r.afterGaps.skipBreak.rest
      rw [Cursor.rest_skipBreak]
      exact fun c hc => hgaps c (List.mem_of_mem_drop hc)
    · next hbreak =>
      show r.afterGaps.rest = []
      cases hrest : r.afterGaps.rest with
      | nil => rfl
      | cons x t =>
        have hhead : r.afterGaps.rest.head? = some x := congrArg List.head? hrest
        have hskips : r.skipsGap x = false := by
          rw [afterGaps_gaps h] at hhead
          exact head_drop_takeWhile hhead
        rcases hgaps x (List.mem_of_mem_head? hhead) with rfl | hend
        · exact nomatch hskips
        · refine absurd ?_ hbreak
          unfold Cursor.head?
          rw [hhead]
          exact hend

end Reader

theorem isAllowed_of_gap {c : Char} (h : c = ' ' ∨ isBreak c = true) : isAllowed c = true := by
  unfold isBreak at h
  simp only [Bool.or_eq_true, decide_eq_true_eq] at h
  rcases h with rfl | (((rfl | rfl) | rfl) | rfl) | rfl <;> rfl

theorem tokens_gaps {t : Text} (h : Gaps t) : tokens t = .ok [] := by
  have hallowed : t.all isAllowed = true := by
    rw [List.all_eq_true]
    exact fun c hc => isAllowed_of_gap (h c hc)
  have hstate : Reader.ahead { cursor := { rest := t } } = _ := Reader.skipGaps_state _ _
  have hrest : (Reader.ahead { cursor := { rest := t } }).cursor.rest = [] :=
    Reader.rest_skipGaps_gaps h (Nat.lt_succ_self _)
  unfold tokens
  rw [if_pos hallowed, Reader.all_succ, Reader.next_of_end hrest,
    Reader.settle_finish (k := none) (by rw [hstate]), hstate]
  rfl

/-- **A text of spaces and line breaks is null.** -/
theorem load_gaps {t : Text} (h : Gaps t) : load t = .ok .null := by
  unfold load
  rw [tokens_gaps h]
  rfl

end MarkdownModule.Yaml

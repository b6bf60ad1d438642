import MarkdownModule.Proofs.Html.TagEnd
import MarkdownModule.Proofs.Text.Utf8

/-!
# The place where a tag ends

A tag of bytes ends at the `>` before which all quotes are closed.

* `Html.BalancedBytes`   bytes in which quotes are balanced and a `>` stands in quotes alone
* `Html.EndsAt`          the place where a tag ends
* `Html.tagEnd?_iff`     it is the place that is found, and the same when the tag is read by characters
-/

namespace MarkdownModule.Html

open Text (utf8 byteSize)

/-! ## tags of bytes -/

def isQuoteByte (b : UInt8) : Bool := b = 0x22 || b = 0x27

/-- bytes that are neither quotes nor `>`, and runs of bytes between two equal quotes -/
inductive BalancedBytes : List UInt8 → Prop
  | nil : BalancedBytes []
  | byte {b : UInt8} {s : List UInt8} (hq : isQuoteByte b = false) (hb : b ≠ 0x3e)
      (hs : BalancedBytes s) : BalancedBytes (b :: s)
  | quoted {q : UInt8} {v s : List UInt8} (hq : isQuoteByte q = true) (hv : q ∉ v)
      (hs : BalancedBytes s) : BalancedBytes (q :: (v ++ q :: s))

/-- the tag at whose `<` the bytes begin ends at the place `i` -/
structure EndsAt (bs : List UInt8) (i : Nat) : Prop where
  one_le : 1 ≤ i
  byte : bs[i]? = some 0x3e
  balanced : BalancedBytes ((bs.take i).drop 1)

/-- what stands before the end of a tag, inside a value quoted by `q` or outside of one -/
def BalancedIn : Option UInt8 → List UInt8 → Prop
  | none, x => BalancedBytes x
  | some q, x => ∃ v s, x = v ++ q :: s ∧ q ∉ v ∧ BalancedBytes s

/-! ## the search -/

section
variable {b q : UInt8} {r : List UInt8} {i k : Nat}

theorem tagEndFrom_quote (hb : isQuoteByte b = true) :
    tagEndFrom k none (b :: r) = tagEndFrom (k + 1) (some b) r := if_pos hb

theorem tagEndFrom_gt : tagEndFrom k none (0x3e :: r) = some k := rfl

theorem tagEndFrom_plain (hq : isQuoteByte b = false) (hb : b ≠ 0x3e) :
    tagEndFrom k none (b :: r) = tagEndFrom (k + 1) none r := by
  have hno : ¬ (b = 0x22 || b = 0x27) = true := by
    intro h
    rw [isQuoteByte, h] at hq
    cases hq
  show (if _ then _ else if _ then _ else _) = _
  rw [if_neg hno, if_neg hb]

theorem tagEndFrom_inside (hb : b ≠ q) :
    tagEndFrom k (some q) (b :: r) = tagEndFrom (k + 1) (some q) r := by
  show tagEndFrom (k + 1) (if b = q then none else some q) r = _
  rw [if_neg hb]

theorem tagEndFrom_closing :
    tagEndFrom k (some q) (q :: r) = tagEndFrom (k + 1) none r := by
  show tagEndFrom (k + 1) (if q = q then none else some q) r = _
  rw [if_pos rfl]

theorem tagEndFrom_quoted {v : List UInt8} (hv : q ∉ v) :
    tagEndFrom k (some q) (v ++ q :: r) = tagEndFrom (k + v.length + 1) none r := by
  induction v generalizing k with
  | nil => exact tagEndFrom_closing
  | cons b v ih =>
    obtain ⟨hb, hv⟩ := not_or.1 fun h => hv (List.mem_cons.2 h)
    have hplace : k + 1 + v.length + 1 = k + (b :: v).length + 1 := by
      rw [List.length_cons]
      omega
    rw [List.cons_append, tagEndFrom_inside (Ne.symm hb), ih hv, hplace]

/-- the search goes over balanced bytes -/
theorem BalancedBytes.tagEndFrom_append {x : List UInt8} (h : BalancedBytes x) (k : Nat)
    (r : List UInt8) : tagEndFrom k none (x ++ r) = tagEndFrom (k + x.length) none r := by
  induction h generalizing k with
  | nil => rfl
  | @byte b s hq hb _ ih =>
    have hplace : k + 1 + s.length = k + (b :: s).length := by
      rw [List.length_cons]
      omega
    rw [List.cons_append, tagEndFrom_plain hq hb, ih, hplace]
  | @quoted q v s hq hv _ ih =>
    have hplace : k + 1 + v.length + 1 + s.length = k + (q :: (v ++ q :: s)).length := by
      rw [List.length_cons, List.length_append, List.length_cons]
      omega
    rw [List.cons_append, List.append_assoc, List.cons_append, tagEndFrom_quote hq,
      tagEndFrom_quoted hv, ih, hplace]

namespace BalancedIn

variable {x : List UInt8}

theorem opening (hb : isQuoteByte b = true) (h : BalancedIn (some b) x) : BalancedIn none (b :: x) := by
  obtain ⟨v, s, rfl, hv, hs⟩ := h
  exact BalancedBytes.quoted hb hv hs

theorem byte (hq : isQuoteByte b = false) (hb : b ≠ 0x3e) (h : BalancedIn none x) :
    BalancedIn none (b :: x) :=
  BalancedBytes.byte hq hb h

theorem closing (h : BalancedIn none x) : BalancedIn (some q) (q :: x) :=
  ⟨[], x, rfl, List.not_mem_nil, h⟩

theorem inside (hb : b ≠ q) (h : BalancedIn (some q) x) : BalancedIn (some q) (b :: x) := by
  obtain ⟨v, s, rfl, hv, hs⟩ := h
  refine ⟨b :: v, s, rfl, fun hmem => ?_, hs⟩
  exact (List.mem_cons.1 hmem).elim (fun e => hb e.symm) hv

end BalancedIn

/-- the search stops at a `>` that has balanced bytes before it -/
theorem exists_of_tagEndFrom {q : Option UInt8} (h : tagEndFrom k q r = some i) :
    ∃ x y, r = x ++ 0x3e :: y ∧ i = k + x.length ∧ BalancedIn q x := by
  induction r generalizing k q with
  | nil => cases q <;> cases h
  | cons b r ih =>
    have hstep : ∀ {q' : Option UInt8}, tagEndFrom (k + 1) q' r = some i →
        (∀ x, BalancedIn q' x → BalancedIn q (b :: x)) →
        ∃ x y, b :: r = x ++ 0x3e :: y ∧ i = k + x.length ∧ BalancedIn q x := by
      intro q' h hbalanced
      obtain ⟨x, y, rfl, hi, hx⟩ := ih h
      refine ⟨b :: x, y, rfl, ?_, hbalanced x hx⟩
      rw [List.length_cons]
      omega
    cases q with
    | none =>
      cases hq : isQuoteByte b with
      | true =>
        rw [tagEndFrom_quote hq] at h
        exact hstep h fun x => .opening hq
      | false =>
        by_cases hb : b = 0x3e
        · subst hb
          rw [tagEndFrom_gt] at h
          cases h
          exact ⟨[], r, rfl, rfl, .nil⟩
        · rw [tagEndFrom_plain hq hb] at h
          exact hstep h fun x => .byte hq hb
    | some q =>
      by_cases hb : b = q
      · subst hb
        rw [tagEndFrom_closing] at h
        exact hstep h fun x => .closing
      · rw [tagEndFrom_inside hb] at h
        exact hstep h fun x => .inside hb

end

/-! ## the place -/

theorem endsAt_iff {bs : List UInt8} {i : Nat} :
    EndsAt bs i ↔ ∃ c x y, bs = c :: (x ++ 0x3e :: y) ∧ BalancedBytes x ∧ i = 1 + x.length := by
  constructor
  · rintro ⟨hi, hbyte, hx⟩
    obtain ⟨n, rfl⟩ : ∃ n, i = n + 1 := ⟨i - 1, by omega⟩
    cases bs with
    | nil => cases hbyte
    | cons c r =>
      obtain ⟨hn, he⟩ := List.getElem?_eq_some_iff.1 (show r[n]? = some 0x3e from hbyte)
      have hcut : r = r.take n ++ 0x3e :: r.drop (n + 1) := by
        rw [← he, ← List.drop_eq_getElem_cons hn, List.take_append_drop]
      have hlen : (r.take n).length = n := by
        rw [List.length_take]
        omega
      exact ⟨c, r.take n, r.drop (n + 1), by rw [← hcut], hx, by omega⟩
  · rintro ⟨c, x, y, rfl, hx, rfl⟩
    have hplace : 1 + x.length = x.length + 1 := Nat.add_comm ..
    refine ⟨by omega, ?_, ?_⟩
    · rw [hplace, List.getElem?_cons_succ, List.getElem?_append_right (Nat.le_refl _), Nat.sub_self]
      rfl
    · rw [hplace, List.take_succ_cons, List.take_left]
      exact hx

theorem tagEnd?_eq_some_iff {bs : List UInt8} {i : Nat} : tagEnd? bs = some i ↔ EndsAt bs i := by
  rw [endsAt_iff]
  constructor
  · intro h
    cases bs with
    | nil => cases h
    | cons c r =>
      obtain ⟨x, y, rfl, hi, hx⟩ := exists_of_tagEndFrom (show tagEndFrom 1 none r = some i from h)
      exact ⟨c, x, y, rfl, hx, hi⟩
  · rintro ⟨c, x, y, rfl, hx, rfl⟩
    show tagEndFrom 1 none (x ++ 0x3e :: y) = _
    rw [hx.tagEndFrom_append, tagEndFrom_gt]

theorem EndsAt.unique {bs : List UInt8} {i j : Nat} (hi : EndsAt bs i) (hj : EndsAt bs j) :
    i = j :=
  Option.some.inj ((tagEnd?_eq_some_iff.2 hi).symm.trans (tagEnd?_eq_some_iff.2 hj))

/-- what stands behind the end of a tag does not count -/
theorem EndsAt.take_append {bs : List UInt8} {i : Nat} (h : EndsAt bs i) (t : List UInt8) :
    EndsAt (bs.take (i + 1) ++ t) i := by
  obtain ⟨c, x, y, rfl, hx, rfl⟩ := endsAt_iff.1 h
  refine endsAt_iff.2 ⟨c, x, t, ?_, hx, rfl⟩
  have hcut : c :: (x ++ 0x3e :: y) = (c :: (x ++ [0x3e])) ++ y := by simp
  have hlen : (c :: (x ++ [0x3e])).length = 1 + x.length + 1 := by
    rw [List.length_cons, List.length_append, List.length_singleton]
    omega
  rw [hcut, ← hlen, List.take_left]
  simp

/-! ## reading by characters -/

/-- bytes beyond ASCII are passed over -/
theorem tagEndFrom_beyond {bs : List UInt8} (h : ∀ b ∈ bs, 128 ≤ b.toNat) {q : Option UInt8}
    (hq : ∀ b ∈ q, b.toNat < 128) (k : Nat) (r : List UInt8) :
    tagEndFrom k q (bs ++ r) = tagEndFrom (k + bs.length) q r := by
  induction bs generalizing k with
  | nil => rfl
  | cons b bs ih =>
    obtain ⟨hb, hbs⟩ := List.forall_mem_cons.1 h
    have hne : ∀ d : UInt8, d.toNat < 128 → b ≠ d := by
      rintro d hd rfl
      omega
    have hplace : k + 1 + bs.length = k + (b :: bs).length := by
      rw [List.length_cons]
      omega
    cases q with
    | none =>
      have hquote : isQuoteByte b = false := by
        rw [isQuoteByte, decide_eq_false (hne 0x22 (by decide)),
          decide_eq_false (hne 0x27 (by decide))]
        rfl
      rw [List.cons_append, tagEndFrom_plain hquote (hne 0x3e (by decide)), ih hbs, hplace]
    | some q =>
      rw [List.cons_append, tagEndFrom_inside (hne q (hq q rfl)), ih hbs, hplace]

def asByte (c : Char) : UInt8 := UInt8.ofNat c.toNat

theorem asByte_inj {c d : Char} (hc : c.toNat < 128) (hd : d.toNat < 128) :
    asByte c = asByte d ↔ c = d := by
  constructor
  · intro h
    have hnat := congrArg UInt8.toNat h
    rw [asByte, asByte, UInt8.toNat_ofNat', UInt8.toNat_ofNat', Nat.mod_eq_of_lt (by omega),
      Nat.mod_eq_of_lt (by omega)] at hnat
    exact Char.toNat_inj.1 hnat
  · rintro rfl
    rfl

theorem isQuoteByte_asByte {c : Char} (hc : c.toNat < 128) : isQuoteByte (asByte c) = isQuote c := by
  have h1 := asByte_inj hc (show ('"' : Char).toNat < 128 by decide)
  have h2 := asByte_inj hc (show ('\'' : Char).toNat < 128 by decide)
  show (decide (asByte c = asByte '"') || decide (asByte c = asByte '\'')) =
    (decide (c = '"') || decide (c = '\''))
  rw [decide_eq_decide.2 h1, decide_eq_decide.2 h2]

theorem lt_of_isQuote {c : Char} (h : isQuote c = true) : c.toNat < 128 := by
  simp only [isQuote, Bool.or_eq_true, decide_eq_true_eq] at h
  rcases h with rfl | rfl <;> decide

/-- the readers of bytes and of characters go over `c` in the same state `q` and are then both in the
state `q'` -/
structure PassedBy (c : Char) (q q' : Option Char) : Prop where
  quote : ∀ d ∈ q', isQuote d = true
  chars : ∀ r, closeTagIn q (c :: r) = (closeTagIn q' r).map fun t => (c :: t.1, t.2)
  bytes : ∀ k r, tagEndFrom k (q.map asByte) (utf8 [c] ++ r) =
    tagEndFrom (k + c.utf8Size) (q'.map asByte) r

theorem utf8_singleton_of_lt {c : Char} (hc : c.toNat < 128) : utf8 [c] = [asByte c] := by
  rw [Text.utf8_cons, Text.utf8EncodeChar_of_lt hc]
  rfl

theorem passedBy_outside {c : Char} (hc : c.toNat < 128) (hgt : c ≠ '>') :
    PassedBy c none (if isQuote c then some c else none) := by
  have hbyte : asByte c ≠ 0x3e := fun e => hgt ((asByte_inj hc (by decide)).1 e)
  refine ⟨?_, fun r => by rw [closeTagIn, if_neg hgt], fun k r => ?_⟩
  · intro d hd
    split at hd
    · next hquote => exact Option.some.inj hd ▸ hquote
    · cases hd
  · rw [utf8_singleton_of_lt hc, Text.utf8Size_of_lt hc]
    split
    · next hquote => exact tagEndFrom_quote ((isQuoteByte_asByte hc).trans hquote)
    · next hquote =>
      rw [Bool.not_eq_true, ← isQuoteByte_asByte hc] at hquote
      exact tagEndFrom_plain hquote hbyte

theorem passedBy_inside {c d : Char} (hc : c.toNat < 128) (hd : isQuote d = true) :
    PassedBy c (some d) (if c = d then none else some d) := by
  refine ⟨?_, fun r => by rw [closeTagIn], fun k r => ?_⟩
  · intro e he
    split at he
    · cases he
    · exact Option.some.inj he ▸ hd
  · rw [utf8_singleton_of_lt hc, Text.utf8Size_of_lt hc]
    split
    · next h =>
      subst h
      exact tagEndFrom_closing
    · next h => exact tagEndFrom_inside fun e => h ((asByte_inj hc (lt_of_isQuote hd)).1 e)

theorem passedBy_beyond {c : Char} (hc : 128 ≤ c.toNat) {q : Option Char}
    (hq : ∀ d ∈ q, isQuote d = true) : PassedBy c q q := by
  have hne : ∀ d : Char, d.toNat < 128 → c ≠ d := by
    rintro d hd rfl
    omega
  refine ⟨hq, fun r => ?_, fun k r => ?_⟩
  · cases q with
    | none =>
      have hquote : ¬ isQuote c = true := fun h => absurd (lt_of_isQuote h) (by omega)
      rw [closeTagIn, if_neg (hne '>' (by decide)), if_neg hquote]
    | some d => rw [closeTagIn, if_neg (hne d (lt_of_isQuote (hq d rfl)))]
  · have hlt : ∀ b ∈ q.map asByte, b.toNat < 128 := by
      intro b hb
      obtain ⟨d, hd, rfl⟩ := Option.map_eq_some_iff.1 hb
      have hd := lt_of_isQuote (hq d hd)
      rw [asByte, UInt8.toNat_ofNat', Nat.mod_eq_of_lt (by omega)]
      exact hd
    have hutf8 : utf8 [c] = String.utf8EncodeChar c := by
      rw [Text.utf8_cons]
      exact List.append_nil _
    rw [hutf8, tagEndFrom_beyond (fun b hb => Text.le_of_mem_utf8EncodeChar hc hb) hlt,
      String.length_utf8EncodeChar]

/-- one character that does not end the tag -/
theorem exists_passedBy {c : Char} {q : Option Char} (hq : ∀ d ∈ q, isQuote d = true)
    (h : q = none → c ≠ '>') : ∃ q', PassedBy c q q' := by
  by_cases hc : c.toNat < 128
  · cases q with
    | none => exact ⟨_, passedBy_outside hc (h rfl)⟩
    | some d => exact ⟨_, passedBy_inside hc (hq d rfl)⟩
  · exact ⟨q, passedBy_beyond (Nat.le_of_not_lt hc) hq⟩

theorem tagEndFrom_utf8 {q : Option Char} (hq : ∀ c ∈ q, isQuote c = true) (k : Nat) (s : Text) :
    tagEndFrom k (q.map asByte) (utf8 s) = (closeTagIn q s).map fun t => k + byteSize t.1 := by
  induction s generalizing k q with
  | nil => cases q <;> rfl
  | cons c r ih =>
    by_cases hend : q = none ∧ c = '>'
    · obtain ⟨rfl, rfl⟩ := hend
      rfl
    · obtain ⟨q', h⟩ := exists_passedBy (c := c) hq fun hnone hgt => hend ⟨hnone, hgt⟩
      have hcut : utf8 (c :: r) = utf8 [c] ++ utf8 r := Text.utf8_append [c] r
      rw [hcut, h.bytes, ih h.quote, h.chars, Option.map_map]
      refine congrArg (Option.map · (closeTagIn q' r)) (funext fun t => ?_)
      show _ = k + byteSize (c :: t.1)
      rw [Text.byteSize_cons, Nat.add_assoc]

/-- the end of a tag in UTF-8 is read by characters behind the first one -/
theorem tagEnd?_utf8 (s : Text) :
    tagEnd? (utf8 s) = (closeTag (s.drop 1)).map fun t => byteSize (s.take 1 ++ t.1) := by
  cases s with
  | nil => rfl
  | cons c r =>
    have hchars := tagEndFrom_utf8 (q := none) (fun d hd => absurd hd (Option.not_mem_none d)) c.utf8Size r
    have hsize : (fun t : Text × Text => c.utf8Size + byteSize t.1) =
        fun t => byteSize ((c :: r).take 1 ++ t.1) := rfl
    rw [List.drop_one, List.tail_cons, closeTag, ← hsize, ← hchars]
    have hsizec := String.length_utf8EncodeChar c
    by_cases hc : c.toNat < 128
    · rw [Text.utf8_cons, Text.utf8EncodeChar_of_lt hc, Text.utf8Size_of_lt hc]
      rfl
    · have hle : ∀ b ∈ String.utf8EncodeChar c, 128 ≤ b.toNat :=
        fun b hb => Text.le_of_mem_utf8EncodeChar (Nat.le_of_not_lt hc) hb
      obtain ⟨b, bs, hb⟩ := Text.exists_cons_utf8EncodeChar c
      rw [hb] at hle hsizec
      rw [Text.utf8_cons, hb]
      show tagEndFrom 1 none (bs ++ utf8 r) = _
      rw [tagEndFrom_beyond (q := none) (List.forall_mem_cons.1 hle).2
        (fun d hd => absurd hd (Option.not_mem_none d)), ← hsizec, List.length_cons, Nat.add_comm]
      rfl

/-- **The end of a tag is found exactly where it is.**  There is at most one such place, nothing is
found when there is none, what stands behind the place does not count, and in UTF-8 the place is that of
the end that is read by characters. -/
theorem tagEnd?_iff :
    (∀ bs i, tagEnd? bs = some i ↔ EndsAt bs i) ∧
    (∀ bs i j, EndsAt bs i → EndsAt bs j → i = j) ∧
    (∀ bs, tagEnd? bs = none ↔ ∀ i, ¬ EndsAt bs i) ∧
    (∀ bs i t, tagEnd? bs = some i → tagEnd? (bs.take (i + 1) ++ t) = some i) ∧
    ∀ s : Text, tagEnd? (utf8 s) =
      (closeTag (s.drop 1)).map fun t => byteSize (s.take 1 ++ t.1) := by
  refine ⟨fun bs i => tagEnd?_eq_some_iff, fun bs i j => EndsAt.unique, ?_, ?_, tagEnd?_utf8⟩
  · intro bs
    rw [Option.eq_none_iff_forall_ne_some]
    exact forall_congr' fun i => not_congr tagEnd?_eq_some_iff
  · intro bs i t h
    exact tagEnd?_eq_some_iff.2 ((tagEnd?_eq_some_iff.1 h).take_append t)

/-- a tag with a `>` in a quoted value, before other texts -/
theorem tagEnd?_iff_quoted :
    EndsAt (utf8 "<a title=\"x > y\">rest".toList) 16 ∧
      tagEnd? ((utf8 "<a title=\"x > y\">rest".toList).take 17 ++ utf8 "\">".toList) = some 16 := by
  obtain ⟨hplace, -, -, hrest, -⟩ := tagEnd?_iff
  have h : tagEnd? (utf8 "<a title=\"x > y\">rest".toList) = some 16 := by decide +kernel
  exact ⟨(hplace _ _).1 h, hrest _ _ _ h⟩

end MarkdownModule.Html

import MarkdownModule.Proofs.Decimal.Shortest
import MarkdownModule.Proofs.Json.Lexeme

/-!
# Numbers keep their value

* `Json.Lexeme.nearest?`        the number that a lexeme denotes, rounded once
* `Json.Number.WellFormed`      an integer of 64 bits, or a binary number in its one form
* `Json.Number.exists_lexeme`   a number is written as a lexeme that denotes it
-/

namespace MarkdownModule.Json

namespace Lexeme

/-- the digits of a lexeme as one natural number -/
def coefficient (l : Lexeme) : Nat := digitsValue (l.integer ++ l.fraction.getD [])

/-- the power of ten by which the coefficient is scaled -/
def power (l : Lexeme) : Int := l.exponent.getD 0 - (l.fraction.getD []).length

/-- the magnitude that a lexeme stands for -/
def value (l : Lexeme) : ℚ := l.coefficient * 10 ^ l.power

/-- whether there is neither a point nor an exponent part -/
def isInteger (l : Lexeme) : Bool := l.fraction.isNone && l.exponent.isNone

/-- the number that a lexeme denotes: an integer that fits into 64 bits, or else the binary number
nearest to the decimal -/
def nearest? (l : Lexeme) : Option Number :=
  let n : Int := if l.negative then -(digitsValue l.integer : Int) else digitsValue l.integer
  if l.isInteger && fitsWord n && !(l.negative && n == 0) then some (.int n)
  else (Binary64.ofDecimal l.negative l.coefficient l.power).map .float

theorem nearest?_of_not_isInteger {l : Lexeme} (h : l.isInteger = false) :
    l.nearest? = (Binary64.ofDecimal l.negative l.coefficient l.power).map .float := by
  unfold nearest?
  dsimp only
  rw [h]
  rfl

theorem nearest?_of_reads {l : Lexeme} (h : l.isInteger = false) {x : Binary64}
    (hx : x.Canonical) (hm : x.significand ≠ 0) (hr : x.Reads l.value) (hl : l.coefficient ≠ 0) :
    l.nearest? = some (.float { x with negative := l.negative }) := by
  rw [nearest?_of_not_isInteger h, Binary64.ofDecimal_of_reads hx hm hl hr]
  rfl

end Lexeme

/-! ## decimals -/

/-- the text is that of a lexeme with this sign and this magnitude, which is no integer -/
structure Spells (l : Lexeme) (s : Text) (negative : Bool) (r : ℚ) : Prop where
  wellFormed : l.WellFormed
  text : l.text = s
  negative : l.negative = negative
  notInteger : l.isInteger = false
  value : l.value = r

def signText (negative : Bool) : Text := if negative then ['-'] else []

section
variable {digits : Text} (hd : DigitRow digits) (hz : digits.head? ≠ some '0') (negative : Bool)
  (k : Nat)
include hd

include hz in
/-- zeros fill the places up to the point -/
theorem spells_zeros : ∃ l, Spells l
    (signText negative ++ (digits ++ List.replicate k '0' ++ ".0".toList)) negative
      (digitsValue digits * 10 ^ (k : Int)) := by
  refine ⟨⟨negative, digits ++ List.replicate k '0', some ['0'], none⟩, ⟨⟨?_, ?_⟩, ?_, ?_⟩, ?_,
    rfl, rfl, ?_⟩
  · exact List.append_ne_nil_of_left_ne_nil hd.ne_nil _
  · intro c hc
    rcases List.mem_append.1 hc with hc | hc
    · exact hd.digits c hc
    · exact isDigit_of_mem_zeros hc
  · intro h
    rw [List.head?_append_of_ne_nil _ hd.ne_nil] at h
    exact absurd h hz
  · intro ds hds
    obtain rfl := Option.some.inj hds
    exact ⟨List.cons_ne_nil _ _, by simp⟩
  · unfold Lexeme.text
    simp only [Option.map_some, Option.getD_some, Option.map_none, Option.getD_none,
      List.append_nil, List.append_assoc]
    rfl
  · show ((digitsValue (digits ++ List.replicate k '0' ++ ['0']) : Nat) : ℚ) *
      10 ^ ((0 : Int) - (1 : Nat)) = _
    have h1 : digitsValue ['0'] = 0 := by decide
    rw [digitsValue_append, digitsValue_append, digitsValue_zeros, h1, List.length_replicate]
    simp only [List.length_singleton, pow_one, add_zero, zero_sub, Nat.cast_one,
      zpow_neg_one, zpow_natCast]
    push_cast
    ring

include hz in
/-- the point stands between the digits -/
theorem spells_point (hk : 0 < k) (hlt : k < digits.length) : ∃ l, Spells l
    (signText negative ++ (digits.take (digits.length - k) ++
      '.' :: digits.drop (digits.length - k))) negative
      (digitsValue digits * 10 ^ (-(k : Int))) := by
  have htake : digits.take (digits.length - k) ≠ [] := by
    intro e
    have := congrArg List.length e
    rw [List.length_take, List.length_nil] at this
    omega
  have hdrop : digits.drop (digits.length - k) ≠ [] := by
    intro e
    have := congrArg List.length e
    rw [List.length_drop, List.length_nil] at this
    omega
  refine ⟨⟨negative, digits.take (digits.length - k), some (digits.drop (digits.length - k)),
    none⟩, ⟨⟨htake, fun c hc => hd.digits c (List.mem_of_mem_take hc)⟩, ?_, ?_⟩, ?_, rfl, rfl, ?_⟩
  · intro h
    refine absurd ?_ hz
    rw [← List.take_append_drop (digits.length - k) digits, List.head?_append_of_ne_nil _ htake]
    exact h
  · intro ds hds
    obtain rfl := Option.some.inj hds
    exact ⟨hdrop, fun c hc => hd.digits c (List.mem_of_mem_drop hc)⟩
  · unfold Lexeme.text
    simp only [Option.map_some, Option.getD_some, Option.map_none, Option.getD_none,
      List.append_nil]
    rfl
  · show ((digitsValue (digits.take (digits.length - k) ++ digits.drop (digits.length - k)) :
      Nat) : ℚ) * 10 ^ ((0 : Int) - (digits.drop (digits.length - k)).length) = _
    rw [List.take_append_drop, List.length_drop, zero_sub]
    congr 3
    omega

/-- zeros fill the places behind the point -/
theorem spells_fraction (hle : digits.length ≤ k) : ∃ l, Spells l
    (signText negative ++ ("0.".toList ++ List.replicate (k - digits.length) '0' ++ digits))
      negative (digitsValue digits * 10 ^ (-(k : Int))) := by
  refine ⟨⟨negative, ['0'], some (List.replicate (k - digits.length) '0' ++ digits), none⟩,
    ⟨⟨List.cons_ne_nil _ _, by simp⟩, fun _ => rfl, ?_⟩, ?_, rfl, rfl, ?_⟩
  · intro ds hds
    obtain rfl := Option.some.inj hds
    refine ⟨List.append_ne_nil_of_right_ne_nil _ hd.ne_nil, fun c hc => ?_⟩
    rcases List.mem_append.1 hc with hc | hc
    · exact isDigit_of_mem_zeros hc
    · exact hd.digits c hc
  · unfold Lexeme.text
    simp only [Option.map_some, Option.getD_some, Option.map_none, Option.getD_none,
      List.append_nil]
    rfl
  · show ((digitsValue (['0'] ++ (List.replicate (k - digits.length) '0' ++ digits)) : Nat) : ℚ) *
      10 ^ ((0 : Int) - (List.replicate (k - digits.length) '0' ++ digits).length) = _
    have h1 : digitsValue ['0'] = 0 := by decide
    rw [digitsValue_append, digitsValue_append, digitsValue_zeros, h1, Nat.mul_zero,
      Nat.mul_zero, Nat.zero_add, Nat.zero_add, List.length_append, List.length_replicate,
      zero_sub]
    congr 3
    omega

end

theorem spells_plainForm {digits : Text} (hd : DigitRow digits) (hz : digits.head? ≠ some '0')
    (power : Int) (negative : Bool) :
    ∃ l, Spells l (signText negative ++ plainForm digits power) negative
      (digitsValue digits * 10 ^ power) := by
  unfold plainForm
  by_cases hp : 0 ≤ power
  · obtain ⟨k, rfl⟩ := Int.eq_ofNat_of_zero_le hp
    rw [if_pos hp]
    exact spells_zeros hd hz negative k
  · obtain ⟨k, rfl⟩ : ∃ k : Nat, power = -(k : Int) := ⟨power.natAbs, by omega⟩
    rw [if_neg hp, neg_neg, Int.toNat_natCast]
    dsimp only
    by_cases hlt : k < digits.length
    · rw [if_pos hlt]
      exact spells_point hd hz negative k (by omega) hlt
    · rw [if_neg hlt]
      exact spells_fraction hd negative k (Nat.le_of_not_lt hlt)

theorem spells_exponentForm {digits : Text} (hd : DigitRow digits) (hz : digits.head? ≠ some '0')
    (exponent : Int) (negative : Bool) :
    ∃ l, Spells l (signText negative ++ exponentForm digits exponent) negative
      (digitsValue digits * 10 ^ (exponent - (digits.length - 1))) := by
  cases digits with
  | nil => exact absurd rfl hd.ne_nil
  | cons d more =>
    have hlead : [d].head? = some '0' → [d] = ['0'] := fun h => absurd h hz
    have hd1 : DigitRow [d] := ⟨List.cons_ne_nil _ _, fun c hc => by
      rw [List.mem_singleton.1 hc]
      exact hd.digits d List.mem_cons_self⟩
    cases more with
    | nil =>
      refine ⟨⟨negative, [d], none, some exponent⟩, ⟨hd1, hlead, fun ds hds => nomatch hds⟩, ?_,
        rfl, rfl, ?_⟩
      · unfold Lexeme.text
        simp only [Option.map_some, Option.getD_some, Option.map_none, Option.getD_none,
          List.nil_append]
        rfl
      · show ((digitsValue [d] : Nat) : ℚ) * 10 ^ (exponent - (0 : Nat)) = _
        rw [List.length_singleton]
        norm_num only
    | cons e more =>
      refine ⟨⟨negative, [d], some (e :: more), some exponent⟩, ⟨hd1, hlead, ?_⟩, ?_, rfl, rfl, ?_⟩
      · intro ds hds
        obtain rfl := Option.some.inj hds
        exact ⟨List.cons_ne_nil _ _, fun c hc => hd.digits c (List.mem_cons_of_mem d hc)⟩
      · unfold Lexeme.text
        simp only [Option.map_some, Option.getD_some]
        rfl
      · show ((digitsValue (d :: e :: more) : Nat) : ℚ) * 10 ^ (exponent - (e :: more).length) = _
        congr 3
        simp only [List.length_cons]
        push_cast
        omega

theorem spells_writeDecimal {d : Decimal} (h : d.digits ≠ 0) (negative : Bool) :
    ∃ l, Spells l (signText negative ++ writeDecimal d) negative d.value := by
  have hd := digitRow_natDigits d.digits
  have hz := head?_natDigits h
  have hv := digitsValue_natDigits d.digits
  unfold writeDecimal Decimal.value
  dsimp only
  split
  · have := spells_plainForm hd hz d.power negative
    rwa [hv] at this
  · have := spells_exponentForm hd hz (d.power + (natDigits d.digits).length - 1) negative
    have e : d.power + ((natDigits d.digits).length : Int) - 1 -
        (((natDigits d.digits).length : Int) - 1) = d.power := by omega
    rwa [hv, e] at this

/-! ## numbers -/

/-- an integer that fits into 64 bits, or a binary number in the form that rounding gives -/
def Number.WellFormed : Number → Prop
  | .int n => fitsWord n = true
  | .float x => x.Canonical

theorem eq_zero_of_isZero {x : Binary64} (hx : x.Canonical) (hz : x.isZero = true) :
    x = Binary64.zero x.negative := by
  obtain ⟨negative, significand, exponent⟩ := x
  have hs : significand = 0 := eq_of_beq hz
  subst hs
  rcases hx.2.2 with he | ⟨h, -⟩
  · have he : exponent = Binary64.minExponent := he
    subst he
    rfl
  · rw [twoTo_52] at h
    exact absurd h (Nat.not_succ_le_zero 4503599627370495)

theorem exists_lexeme_int {n : Int} (h : fitsWord n = true) :
    ∃ l : Lexeme, l.WellFormed ∧ l.text = intDigits n ∧ l.nearest? = some (.int n) := by
  have hform : ∀ (negative : Bool) (k : Nat),
      (⟨negative, natDigits k, none, none⟩ : Lexeme).WellFormed := by
    intro negative k
    refine ⟨digitRow_natDigits k, fun hz => ?_, fun ds hds => nomatch hds⟩
    by_cases hk : k = 0
    · subst hk
      exact Nat.toDigits_zero 10
    · exact absurd hz (head?_natDigits hk)
  cases n with
  | ofNat k =>
    refine ⟨⟨false, natDigits k, none, none⟩, hform false k, ?_, ?_⟩
    · exact (List.append_nil (natDigits k))
    · unfold Lexeme.nearest?
      dsimp only
      rw [digitsValue_natDigits]
      have h : fitsWord (k : Int) = true := h
      simp [Lexeme.isInteger, h]
  | negSucc k =>
    refine ⟨⟨true, natDigits (k + 1), none, none⟩, hform true (k + 1), ?_, ?_⟩
    · exact congrArg ('-' :: ·) (List.append_nil (natDigits (k + 1)))
    · unfold Lexeme.nearest?
      dsimp only
      rw [digitsValue_natDigits]
      have e : -((k + 1 : Nat) : Int) = Int.negSucc k := rfl
      have hz : (Int.negSucc k == 0) = false := rfl
      rw [if_pos rfl, e, h, hz]
      rfl

theorem exists_lexeme_float {x : Binary64} (hx : x.Canonical) :
    ∃ l : Lexeme, l.WellFormed ∧ l.text = writeFloat x ∧ l.nearest? = some (.float x) := by
  unfold writeFloat
  cases hz : x.isZero with
  | true =>
    refine ⟨⟨x.negative, ['0'], some ['0'], none⟩,
      ⟨⟨List.cons_ne_nil _ _, by simp⟩, fun _ => rfl, ?_⟩, rfl, ?_⟩
    · intro ds hds
      obtain rfl := Option.some.inj hds
      exact ⟨List.cons_ne_nil _ _, by simp⟩
    · rw [Lexeme.nearest?_of_not_isInteger rfl, eq_zero_of_isZero hx hz]
      rfl
  | false =>
    have hm : x.significand ≠ 0 := ne_of_beq_false hz
    obtain ⟨hd, hr⟩ := Binary64.reads_shortest hx hm
    obtain ⟨l, hl⟩ := spells_writeDecimal hd x.negative
    refine ⟨l, hl.wellFormed, hl.text, ?_⟩
    have hc : l.coefficient ≠ 0 := by
      intro e
      have h1 := hl.value
      unfold Lexeme.value Decimal.value at h1
      rw [e, Nat.cast_zero, zero_mul] at h1
      have h2 : (x.shortest.digits : ℚ) ≠ 0 := by exact_mod_cast hd
      exact mul_ne_zero h2 (Binary64.zpow_pos_ten _).ne' h1.symm
    rw [← hl.value] at hr
    rw [Lexeme.nearest?_of_reads hl.notInteger hx hm hr hc, hl.negative]

/-- **A number is written as a lexeme that denotes it.** -/
theorem Number.exists_lexeme {n : Number} (h : n.WellFormed) :
    ∃ l : Lexeme, l.WellFormed ∧ l.text = n.write ∧ l.nearest? = some n := by
  cases n with
  | int n => exact exists_lexeme_int h
  | float x => exact exists_lexeme_float h

end MarkdownModule.Json

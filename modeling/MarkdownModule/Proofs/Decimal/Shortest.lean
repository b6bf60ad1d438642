import MarkdownModule.Decimal.Shortest
import MarkdownModule.Proofs.Decimal.Rounding

/-!
# The shortest decimal reads back

* `Binary64.Reads`               the rational numbers that round to a binary number
* `Binary64.ofDecimal_of_reads`  a decimal in the interval of a number is read as the number
* `Binary64.reads_shortest`      the shortest decimal lies in the interval
-/

namespace MarkdownModule

def Decimal.value (d : Decimal) : ℚ := d.digits * 10 ^ d.power

namespace Binary64

/-! ## the interval of a number -/

def magnitude (x : Binary64) : ℚ := x.significand * 2 ^ x.exponent

/-- the lower end of the magnitudes that round to the magnitude of the number -/
def lowEnd (x : Binary64) : ℚ := ((x.significand : ℚ) - x.below / 4) * 2 ^ x.exponent

def highEnd (x : Binary64) : ℚ := ((x.significand : ℚ) + 1 / 2) * 2 ^ x.exponent

/-- a rational number that rounds to the magnitude of the number -/
structure Reads (x : Binary64) (r : ℚ) : Prop where
  low : x.lowEnd ≤ r
  high : r ≤ x.highEnd
  low_lt : x.significand % 2 = 1 → x.lowEnd < r
  high_lt : x.significand % 2 = 1 → r < x.highEnd

theorem below_cases (x : Binary64) :
    (x.below = 1 ∧ x.significand = twoTo 52 ∧ minExponent < x.exponent) ∨
      (x.below = 2 ∧ ¬ (x.significand = twoTo 52 ∧ minExponent < x.exponent)) := by
  unfold below
  by_cases h : x.significand = twoTo 52 ∧ minExponent < x.exponent
  · exact .inl ⟨if_pos (by simp [h.1, h.2]), h⟩
  · exact .inr ⟨if_neg (by simpa using h), h⟩

theorem below_bounds (x : Binary64) : (1 : ℚ) ≤ x.below ∧ (x.below : ℚ) ≤ 2 := by
  rcases x.below_cases with ⟨e, -⟩ | ⟨e, -⟩
  · rw [e]
    norm_num
  · rw [e]
    norm_num

theorem one_le_significand {x : Binary64} (hm : x.significand ≠ 0) : (1 : ℚ) ≤ x.significand := by
  exact_mod_cast Nat.one_le_iff_ne_zero.2 hm

/-- the spacing of the numbers below a power of two is half of that above -/
theorem zpow_eq_mul_two (e : Int) : (2 : ℚ) ^ e = 2 ^ (e - 1) * 2 := by
  rw [← zpow_add_one₀ (by norm_num), sub_add_cancel]

theorem Reads.lt {x : Binary64} {r : ℚ} (hx : x.Canonical) (h : Reads x r) :
    r < 2 ^ 53 * 2 ^ x.exponent := by
  have hlt := hx.1
  rw [twoTo_53] at hlt
  have hm : (x.significand : ℚ) ≤ 2 ^ 53 - 1 := by
    have h' : x.significand ≤ 9007199254740991 := by omega
    calc (x.significand : ℚ) ≤ (9007199254740991 : Nat) := by exact_mod_cast h'
      _ = 2 ^ 53 - 1 := by norm_num
  refine h.high.trans_lt ?_
  unfold highEnd
  have := zpow_pos_two x.exponent
  gcongr
  linarith

/-- above a power of two the number is the significand nearest to the quotient -/
theorem Reads.nearest {x : Binary64} {r : ℚ} (h : Reads x r) :
    Nearest (r / 2 ^ x.exponent) x.significand := by
  have hp := zpow_pos_two x.exponent
  obtain ⟨h1, h2, h3, h4⟩ := h
  unfold lowEnd at h1 h3
  unfold highEnd at h2 h4
  rw [← le_div_iff₀ hp] at h1
  rw [← div_le_iff₀ hp] at h2
  simp only [← lt_div_iff₀ hp] at h3
  simp only [← div_lt_iff₀ hp] at h4
  have hb := x.below_bounds.2
  refine ⟨by linarith, h2, fun ht => ?_⟩
  by_contra hodd
  have hodd : x.significand % 2 = 1 := by omega
  have h5 := h3 hodd
  have h6 := h4 hodd
  rcases ht with ht | ht
  · linarith
  · linarith

/-- below a power of two the quotient has one bit more, and rounds up -/
theorem Reads.nearest_below {x : Binary64} {r : ℚ} (h : Reads x r) (hb : x.below = 1)
    (hm : x.significand = twoTo 52) (hlt : r < 2 ^ 52 * 2 ^ x.exponent) :
    Nearest (r / 2 ^ (x.exponent - 1)) (twoTo 53) := by
  have hp := zpow_pos_two (x.exponent - 1)
  have he := zpow_eq_mul_two x.exponent
  have h1 := h.low
  unfold lowEnd at h1
  rw [hb, hm, he, twoTo_52] at h1
  rw [he] at hlt
  rw [twoTo_53]
  have hlow : (9007199254740992 : ℚ) - 1 / 2 ≤ r / 2 ^ (x.exponent - 1) := by
    rw [le_div_iff₀ hp]
    push_cast at h1
    linarith
  have hhigh : r / 2 ^ (x.exponent - 1) < 9007199254740992 := by
    rw [div_lt_iff₀ hp]
    linarith
  exact ⟨by push_cast; linarith, by push_cast; linarith, fun _ => by norm_num⟩

theorem pack_eq {negative : Bool} {m : Nat} {e : Int} (hm : m < twoTo 53) (he : e ≤ maxExponent) :
    pack negative m e = some ⟨negative, m, e⟩ := by
  unfold pack
  rw [if_neg (Nat.ne_of_lt hm)]
  exact if_pos he

theorem pack_carry {negative : Bool} {e : Int} (he : e + 1 ≤ maxExponent) :
    pack negative (twoTo 53) e = some ⟨negative, twoTo 52, e + 1⟩ := by
  unfold pack
  rw [if_pos rfl]
  exact if_pos he

/-- **A number is read back from its interval.** -/
theorem round_of_reads {x : Binary64} (hx : x.Canonical) {num den : Nat} (hn : 0 < num)
    (hd : 0 < den) (h : Reads x ((num : ℚ) / den)) (negative : Bool) :
    round negative num den = some { x with negative } := by
  have hlt := h.lt hx
  obtain ⟨hm, hmax, hmin⟩ := hx
  by_cases hA : x.exponent = minExponent ∨ 2 ^ 52 * 2 ^ x.exponent ≤ (num : ℚ) / den
  · have hleast : minExponent ≤ x.exponent := by
      rcases hmin with e | ⟨-, h⟩
      · exact le_of_eq e.symm
      · exact h
    rw [round_of_nearest hn hd negative ⟨hleast, hlt, hA⟩ h.nearest, pack_eq hm hmax]
  · obtain ⟨hne, hsmall⟩ := not_or.1 hA
    obtain ⟨hm52, hleast⟩ := hmin.resolve_left hne
    have hgt : minExponent < x.exponent := lt_of_le_of_ne hleast (Ne.symm hne)
    have hsmall := not_le.1 hsmall
    have hp := zpow_pos_two x.exponent
    have hmeq : x.significand = twoTo 52 := by
      by_contra hne
      have h1 := h.low
      rcases x.below_cases with ⟨-, e, -⟩ | ⟨hb, -⟩
      · exact hne e
      · unfold lowEnd at h1
        rw [hb] at h1
        rw [twoTo_52] at hne hm52
        have hm' : 4503599627370497 ≤ x.significand := by omega
        have hm' : (4503599627370497 : ℚ) ≤ x.significand := by exact_mod_cast hm'
        have h2 : (2 ^ 52 : ℚ) * 2 ^ x.exponent <
            (x.significand - ((2 : Nat) : ℚ) / 4) * 2 ^ x.exponent := by
          gcongr
          push_cast
          linarith
        linarith
    obtain ⟨hb, -⟩ := x.below_cases.resolve_right fun h => h.2 ⟨hmeq, hgt⟩
    have hnear := h.nearest_below hb hmeq hsmall
    have he := zpow_eq_mul_two x.exponent
    have hfit : Fits ((num : ℚ) / den) (x.exponent - 1) := by
      refine ⟨by omega, by rw [he] at hsmall; linarith, .inr ?_⟩
      have h1 := h.low
      unfold lowEnd at h1
      rw [hb, hmeq, twoTo_52, he] at h1
      have := zpow_pos_two (x.exponent - 1)
      push_cast at h1
      linarith
    rw [round_of_nearest hn hd negative hfit hnear, pack_carry (by omega), sub_add_cancel, hmeq]

/-! ## decimals in the interval -/

theorem toDigits_bounds {n : Nat} (h : n ≠ 0) :
    (10 : ℚ) ^ (((Nat.toDigits 10 n).length : Int) - 1) ≤ n ∧
      (n : ℚ) < 10 ^ ((Nat.toDigits 10 n).length : Int) := by
  have hpos : 0 < (Nat.toDigits 10 n).length := Nat.length_toDigits_pos
  have hle : ∀ k, 0 < k → ((Nat.toDigits 10 n).length ≤ k ↔ n < 10 ^ k) :=
    fun k hk => Nat.length_toDigits_le_iff (by decide) hk
  generalize (Nat.toDigits 10 n).length = k at *
  constructor
  · obtain ⟨l, rfl⟩ : ∃ l, k = l + 1 := ⟨k - 1, by omega⟩
    have hl : 10 ^ l ≤ n := by
      cases l with
      | zero => rw [Nat.pow_zero]; omega
      | succ l =>
        refine Nat.le_of_not_lt fun hlt => ?_
        have := (hle (l + 1) (Nat.succ_pos l)).2 hlt
        omega
    rw [Nat.cast_add, Nat.cast_one, add_sub_cancel_right, zpow_natCast]
    exact_mod_cast hl
  · have hlt := (hle k hpos).1 (Nat.le_refl k)
    rw [zpow_natCast]
    exact_mod_cast hlt

theorem zpow_pos_ten (e : Int) : (0 : ℚ) < 10 ^ e := zpow_pos (by norm_num) e

theorem exponent_bounds {x : Binary64} (hx : x.Canonical) :
    minExponent ≤ x.exponent ∧ x.exponent ≤ maxExponent := by
  obtain ⟨-, hmax, hmin⟩ := hx
  refine ⟨?_, hmax⟩
  rcases hmin with e | ⟨-, h⟩
  · exact le_of_eq e.symm
  · exact h

/-- three bits are less than a decimal digit -/
theorem two_zpow_lt {n : Int} (h : n ≤ 1197) : (2 : ℚ) ^ n < 10 ^ (399 : Int) := by
  calc (2 : ℚ) ^ n ≤ 2 ^ ((3 : Int) * 399) := zpow_le_zpow_right₀ (by norm_num) h
    _ = 8 ^ (399 : Int) := by
      rw [zpow_mul]
      norm_num only
    _ < 10 ^ (399 : Int) := zpow_lt_zpow_left₀ (by norm_num) (by norm_num) (by norm_num)

/-- no number that is read as another than zero is very small or very large -/
theorem Reads.bounds {x : Binary64} (hx : x.Canonical) (hm : x.significand ≠ 0) {r : ℚ}
    (h : Reads x r) : 10 ^ (-399 : Int) < r ∧ r < 10 ^ (399 : Int) := by
  obtain ⟨hleast, hmax⟩ := exponent_bounds hx
  constructor
  · have hb := x.below_bounds.2
    have h1 := one_le_significand hm
    have hz := zpow_pos_two x.exponent
    calc (10 : ℚ) ^ (-399 : Int) < 2 ^ (-1075 : Int) := by
          rw [zpow_neg, zpow_neg]
          exact inv_strictAnti₀ (zpow_pos (by norm_num) _) (two_zpow_lt (by norm_num))
      _ ≤ 2 ^ (x.exponent - 1) :=
          zpow_le_zpow_right₀ (by norm_num) (by unfold minExponent at hleast; omega)
      _ = 1 / 2 * 2 ^ x.exponent := by
          rw [zpow_sub_one₀ (by norm_num)]
          ring
      _ ≤ x.lowEnd := mul_le_mul_of_nonneg_right (by linarith) hz.le
      _ ≤ r := h.low
  · calc r < 2 ^ 53 * 2 ^ x.exponent := h.lt hx
      _ = 2 ^ (53 + x.exponent) := by
          rw [zpow_add₀ (by norm_num)]
          norm_num only
      _ < 10 ^ (399 : Int) := two_zpow_lt (by unfold maxExponent at hmax; omega)

/-- **A decimal in the interval of a number is read as the number.** -/
theorem ofDecimal_of_reads {x : Binary64} (hx : x.Canonical) (hm : x.significand ≠ 0) {digits : Nat}
    {power : Int} (hd : digits ≠ 0) (h : Reads x (digits * 10 ^ power)) (negative : Bool) :
    ofDecimal negative digits power = some { x with negative } := by
  obtain ⟨hlow, hhigh⟩ := h.bounds hx hm
  obtain ⟨hd1, hd2⟩ := toDigits_bounds hd
  unfold ofDecimal
  dsimp only
  generalize ((Nat.toDigits 10 digits).length : Int) = places at *
  have hp := zpow_pos_ten power
  have hsmall : ¬ power + places < -400 := by
    intro hlt
    have h1 : (digits : ℚ) * 10 ^ power < 10 ^ (power + places) := by
      rw [zpow_add₀ (by norm_num), mul_comm]
      gcongr
    have h2 := zpow_le_zpow_right₀ (show (1 : ℚ) ≤ 10 by norm_num)
      (show power + places ≤ -399 by omega)
    linarith
  have hlarge : ¬ 400 < power + places := by
    intro hlt
    have h1 : (10 : ℚ) ^ (power + (places - 1)) ≤ digits * 10 ^ power := by
      rw [zpow_add₀ (by norm_num), mul_comm]
      gcongr
    have h2 := zpow_le_zpow_right₀ (show (1 : ℚ) ≤ 10 by norm_num)
      (show (399 : Int) ≤ power + (places - 1) by omega)
    linarith
  rw [if_neg (by simp [hd, hsmall]), if_neg hlarge]
  have hdpos : 0 < digits := Nat.pos_of_ne_zero hd
  cases power with
  | ofNat k =>
    refine round_of_reads hx (Nat.mul_pos hdpos (pow_pos (by norm_num) k)) (by decide) ?_ negative
    have e : (((digits * 10 ^ k : Nat) : ℚ) / (1 : Nat)) = digits * 10 ^ (Int.ofNat k) := by
      push_cast
      rw [div_one]
      rfl
    rw [e]
    exact h
  | negSucc k =>
    refine round_of_reads hx hdpos (pow_pos (by norm_num) (k + 1)) ?_ negative
    have e : ((digits : ℚ) / (10 ^ (k + 1) : Nat)) = digits * 10 ^ (Int.negSucc k) := by
      rw [zpow_negSucc]
      push_cast
      rw [div_eq_mul_inv]
    rw [e]
    exact h

/-! ## the integers of the interval -/

theorem den_pos (x : Binary64) : 0 < x.interval.den := scaled_pos 1 (by decide) (-x.exponent)

/-- the ends of the interval in integers -/
theorem interval_eq (x : Binary64) (hm : x.significand ≠ 0) :
    (x.interval.low : ℚ) / x.interval.den = x.lowEnd ∧
      (x.interval.value : ℚ) / x.interval.den = x.magnitude ∧
      (x.interval.high : ℚ) / x.interval.den = x.highEnd := by
  have hq := scaled_eq 1 4 (-x.exponent)
  have hb : x.below ≤ 4 * x.significand := by
    rcases x.below_cases with ⟨e, -⟩ | ⟨e, -⟩ <;> rw [e] <;> omega
  unfold interval lowEnd magnitude highEnd
  dsimp only
  generalize scaled 1 4 (-x.exponent) = t at hq
  have hq' : (t.1 : ℚ) / t.2 = 2 ^ x.exponent / 4 := by
    rw [hq, zpow_neg]
    push_cast
    rw [div_inv_eq_mul]
    ring
  refine ⟨?_, ?_, ?_⟩
  · rw [Nat.cast_mul, mul_div_assoc, hq', Nat.cast_sub hb]
    push_cast
    ring
  · rw [Nat.cast_mul, mul_div_assoc, hq']
    push_cast
    ring
  · rw [Nat.cast_mul, mul_div_assoc, hq']
    push_cast
    ring

theorem overDen_eq (i : Interval) (digits : Nat) (power : Int) :
    0 < (i.overDen digits power).2 ∧
      ((i.overDen digits power).1 : ℚ) / (i.overDen digits power).2 =
        digits * 10 ^ power * i.den := by
  cases power with
  | ofNat k =>
    refine ⟨Nat.one_pos, ?_⟩
    show (((digits * tenTo k * i.den : Nat) : ℚ) / (1 : Nat)) = _
    rw [tenTo_eq]
    push_cast
    rw [div_one]
    rfl
  | negSucc k =>
    refine ⟨pow_pos (by norm_num) (k + 1), ?_⟩
    show (((digits * i.den : Nat) : ℚ) / (tenTo (k + 1) : Nat)) = _
    rw [tenTo_eq, zpow_negSucc]
    push_cast
    ring

/-- a number of denominators lies below a decimal just when the fraction does -/
theorem le_overDen_iff {i : Interval} (hi : 0 < i.den) (a digits : Nat) (power : Int) :
    (a * (i.overDen digits power).2 ≤ (i.overDen digits power).1 ↔
        (a : ℚ) / i.den ≤ digits * 10 ^ power) ∧
      ((i.overDen digits power).1 ≤ a * (i.overDen digits power).2 ↔
        digits * 10 ^ power ≤ (a : ℚ) / i.den) := by
  obtain ⟨hpos, heq⟩ := overDen_eq i digits power
  generalize i.overDen digits power = t at *
  have hden : (0 : ℚ) < i.den := by exact_mod_cast hi
  have ht : (0 : ℚ) < t.2 := by exact_mod_cast hpos
  rw [div_eq_iff ht.ne'] at heq
  constructor
  · rw [div_le_iff₀ hden, ← mul_le_mul_iff_left₀ ht, ← heq]
    norm_cast
  · rw [le_div_iff₀ hden, ← mul_le_mul_iff_left₀ ht, ← heq]
    norm_cast

/-- the integer test of the interval -/
theorem holds_iff {x : Binary64} (hm : x.significand ≠ 0) (digits : Nat) (power : Int) :
    x.interval.holds digits power = true ↔ Reads x (digits * 10 ^ power) := by
  obtain ⟨hlow, -, hhigh⟩ := interval_eq x hm
  obtain ⟨h1, h2⟩ := le_overDen_iff (den_pos x) x.interval.low digits power
  obtain ⟨h3, h4⟩ := le_overDen_iff (den_pos x) x.interval.high digits power
  have hclosed : x.interval.closed = decide (x.significand % 2 = 0) := rfl
  rw [hlow] at h1 h2
  rw [hhigh] at h3 h4
  unfold Interval.holds
  rw [hclosed]
  generalize x.interval.overDen digits power = t at *
  by_cases hodd : x.significand % 2 = 1
  · rw [if_neg (by simp [hodd]), Bool.and_eq_true, decide_eq_true_iff, decide_eq_true_iff,
      ← not_le, ← not_le, h2, h3, not_le, not_le]
    constructor
    · intro ⟨hl, hh⟩
      exact ⟨hl.le, hh.le, fun _ => hl, fun _ => hh⟩
    · intro h
      exact ⟨h.low_lt hodd, h.high_lt hodd⟩
  · rw [if_pos (by simp; omega), Bool.and_eq_true, decide_eq_true_iff, decide_eq_true_iff, h1, h4]
    constructor
    · intro ⟨hl, hh⟩
      exact ⟨hl, hh, fun ho => absurd ho hodd, fun ho => absurd ho hodd⟩
    · intro h
      exact ⟨h.low, h.high⟩

/-! ## the search -/

theorem holds_of_onGrid {i : Interval} {power : Int} {d : Decimal} (h : i.onGrid power = some d) :
    d.digits ≠ 0 ∧ i.holds d.digits d.power = true := by
  unfold Interval.onGrid at h
  dsimp only at h
  generalize roundHalfEven (i.inUnits power).1 (i.inUnits power).2 = near at h
  generalize (if near = _ then _ else _ : Nat) = far at h
  split at h
  · rename_i hn
    rw [Bool.and_eq_true, decide_eq_true_iff] at hn
    obtain rfl := Option.some.inj h
    exact hn
  · split at h
    · rename_i hf
      rw [Bool.and_eq_true, decide_eq_true_iff] at hf
      obtain rfl := Option.some.inj h
      exact hf
    · exact absurd h (by simp)

/-- whatever the search finds lies in the interval -/
theorem holds_of_search {i : Interval} {d : Decimal} {power : Int} {fuel : Nat}
    (h : i.search power fuel = some d) : d.digits ≠ 0 ∧ i.holds d.digits d.power = true := by
  induction fuel generalizing power with
  | zero => exact absurd h (by simp [Interval.search])
  | succ fuel ih =>
    unfold Interval.search at h
    split at h
    · rename_i e
      obtain rfl := Option.some.inj h
      exact holds_of_onGrid e
    · exact ih h

/-- the search goes down to the first grid that has a decimal in the interval -/
theorem search_ne_none {i : Interval} {power : Int} {fuel k : Nat} (hk : k < fuel)
    (h : i.onGrid (power - k) ≠ none) : i.search power fuel ≠ none := by
  induction fuel generalizing power k with
  | zero => exact absurd hk (Nat.not_lt_zero k)
  | succ fuel ih =>
    unfold Interval.search
    split
    · exact Option.some_ne_none _
    · rename_i hnone
      cases k with
      | zero => exact absurd hnone (by simpa using h)
      | succ k =>
        refine ih (Nat.lt_of_succ_lt_succ hk) ?_
        have e : power - 1 - (k : Int) = power - ((k + 1 : Nat) : Int) := by
          push_cast
          ring
        rw [e]
        exact h

theorem inUnits_eq {i : Interval} (hi : 0 < i.den) (power : Int) :
    0 < (i.inUnits power).2 ∧
      ((i.inUnits power).1 : ℚ) / (i.inUnits power).2 = i.value / i.den / 10 ^ power := by
  cases power with
  | ofNat k =>
    refine ⟨Nat.mul_pos hi (pow_pos (by norm_num) k), ?_⟩
    show ((i.value : ℚ) / (i.den * tenTo k : Nat)) = _
    rw [tenTo_eq]
    push_cast
    rw [div_div]
    rfl
  | negSucc k =>
    refine ⟨hi, ?_⟩
    show (((i.value * tenTo (k + 1) : Nat) : ℚ) / i.den) = _
    rw [tenTo_eq, zpow_negSucc]
    push_cast
    rw [div_inv_eq_mul]
    ring

theorem isPowerBelow_iff {n d : Nat} (hd : 0 < d) (power : Int) :
    isPowerBelow n d power = true ↔ (10 : ℚ) ^ power ≤ n / d := by
  have hd' : (0 : ℚ) < d := by exact_mod_cast hd
  cases power with
  | ofNat k =>
    show decide (d * tenTo k ≤ n) = true ↔ _
    rw [decide_eq_true_iff, tenTo_eq, le_div_iff₀ hd', mul_comm, Int.ofNat_eq_natCast, zpow_natCast]
    norm_cast
  | negSucc k =>
    have hk : (0 : ℚ) < 10 ^ (k + 1) := pow_pos (by norm_num) (k + 1)
    show decide (d ≤ n * tenTo (k + 1)) = true ↔ _
    rw [decide_eq_true_iff, tenTo_eq, zpow_negSucc, le_div_iff₀ hd', inv_mul_le_iff₀ hk, mul_comm]
    norm_cast

/-- a leading power is at most the number, if the last one that is tried is -/
theorem leadingPower_le {n d : Nat} (hd : 0 < d) {estimate : Int} {fuel : Nat}
    (h : (10 : ℚ) ^ (estimate - fuel) ≤ n / d) :
    (10 : ℚ) ^ leadingPower n d estimate fuel ≤ n / d := by
  induction fuel generalizing estimate with
  | zero => simpa [leadingPower] using h
  | succ fuel ih =>
    unfold leadingPower
    split
    · rename_i hp
      exact (isPowerBelow_iff hd estimate).1 hp
    · refine ih ?_
      have e : estimate - 1 - (fuel : Int) = estimate - ((fuel + 1 : Nat) : Int) := by
        push_cast
        ring
      rw [e]
      exact h

/-- rounding moves a number by half a unit at most -/
theorem abs_roundHalfEven {n d : Nat} (hd : 0 < d) :
    |(roundHalfEven n d : ℚ) - n / d| ≤ 1 / 2 := by
  have hd' : (0 : ℚ) < d := by exact_mod_cast hd
  have hdiv := Nat.div_add_mod n d
  have hmod := Nat.mod_lt n hd
  have hnat : 2 * n ≤ 2 * (d * roundHalfEven n d) + d ∧
      2 * (d * roundHalfEven n d) ≤ 2 * n + d := by
    unfold roundHalfEven
    dsimp only
    have hsucc : d * (n / d + 1) = d * (n / d) + d := Nat.mul_succ d (n / d)
    split_ifs <;> constructor <;> omega
  obtain ⟨h1, h2⟩ := hnat
  have h1 : (2 : ℚ) * n ≤ 2 * (d * roundHalfEven n d) + d := by exact_mod_cast h1
  have h2 : (2 : ℚ) * (d * roundHalfEven n d) ≤ 2 * n + d := by exact_mod_cast h2
  have hv : (n : ℚ) / d * d = n := div_mul_cancel₀ _ hd'.ne'
  rw [abs_sub_le_iff]
  constructor
  · refine le_of_mul_le_mul_right ?_ hd'
    linarith
  · refine le_of_mul_le_mul_right ?_ hd'
    linarith

theorem reads_of_abs_lt {x : Binary64} {r : ℚ} (h : |r - x.magnitude| < 2 ^ x.exponent / 4) :
    Reads x r := by
  have hb := x.below_bounds.1
  have hp := zpow_pos_two x.exponent
  have hb' : (2 : ℚ) ^ x.exponent ≤ x.below * 2 ^ x.exponent := le_mul_of_one_le_left hp.le hb
  obtain ⟨h1, h2⟩ := abs_lt.1 h
  unfold magnitude at h1 h2
  have hlow : x.lowEnd < r := by
    unfold lowEnd
    linarith
  have hhigh : r < x.highEnd := by
    unfold highEnd
    linarith
  exact ⟨hlow.le, hhigh.le, fun _ => hlow, fun _ => hhigh⟩

theorem reads_magnitude (x : Binary64) : Reads x x.magnitude := by
  refine reads_of_abs_lt ?_
  rw [sub_self, abs_zero]
  have := zpow_pos_two x.exponent
  linarith

/-- a grid that is finer than the interval has a decimal in the interval -/
theorem onGrid_ne_none {x : Binary64} (hm : x.significand ≠ 0) {power : Int}
    (h : (10 : ℚ) ^ power < 2 ^ x.exponent / 2) : x.interval.onGrid power ≠ none := by
  obtain ⟨-, hvalue, -⟩ := interval_eq x hm
  obtain ⟨hpos, hunits⟩ := inUnits_eq (den_pos x) power
  have hten := zpow_pos_ten power
  have hnear := abs_roundHalfEven (n := (x.interval.inUnits power).1) hpos
  rw [hunits, hvalue] at hnear
  have hreads : Reads x (roundHalfEven (x.interval.inUnits power).1 (x.interval.inUnits power).2 *
      10 ^ power) := by
    refine reads_of_abs_lt ?_
    generalize (roundHalfEven (x.interval.inUnits power).1 (x.interval.inUnits power).2 : ℚ) = k
      at *
    calc |k * 10 ^ power - x.magnitude| = |k - x.magnitude / 10 ^ power| * 10 ^ power := by
          rw [← abs_of_pos hten, ← abs_mul, abs_of_pos hten, sub_mul, div_mul_cancel₀ _ hten.ne']
      _ ≤ 1 / 2 * 10 ^ power := by gcongr
      _ < 2 ^ x.exponent / 4 := by linarith
  have hne : roundHalfEven (x.interval.inUnits power).1 (x.interval.inUnits power).2 ≠ 0 := by
    intro e
    rw [e] at hreads
    have h1 := hreads.low
    have hb := x.below_bounds.2
    have h2 := one_le_significand hm
    have h3 : (0 : ℚ) < x.lowEnd := mul_pos (by linarith) (zpow_pos_two x.exponent)
    rw [Nat.cast_zero, zero_mul] at h1
    linarith
  unfold Interval.onGrid
  dsimp only
  rw [if_pos (by simp [hne, (holds_iff hm _ _).2 hreads])]
  exact Option.some_ne_none _

/-- the greatest power of ten that the search starts from is at most the number -/
theorem leading_le {x : Binary64} (hx : x.Canonical) (hm : x.significand ≠ 0) :
    (10 : ℚ) ^ leadingPower x.interval.value x.interval.den
      ((Nat.toDigits 10 (x.interval.value / x.interval.den)).length : Int) 400 ≤ x.magnitude := by
  obtain ⟨-, hvalue, -⟩ := interval_eq x hm
  have hden := den_pos x
  rw [← hvalue]
  refine leadingPower_le hden ?_
  by_cases hq : x.interval.value / x.interval.den = 0
  · rw [hq, hvalue, Nat.toDigits_of_lt_base (by decide)]
    exact (x.reads_magnitude.bounds hx hm).1.le
  · obtain ⟨h1, -⟩ := toDigits_bounds hq
    refine le_trans ?_ (h1.trans Nat.cast_div_le)
    generalize ((Nat.toDigits 10 (x.interval.value / x.interval.den)).length : Int) = places
    exact zpow_le_zpow_right₀ (by norm_num) (by push_cast; omega)

/-- **The shortest decimal of a number lies in its interval.** -/
theorem reads_shortest {x : Binary64} (hx : x.Canonical) (hm : x.significand ≠ 0) :
    x.shortest.digits ≠ 0 ∧ Reads x x.shortest.value := by
  have htop := leading_le hx hm
  unfold shortest
  dsimp only
  generalize leadingPower _ _ _ _ = top at *
  have hfine : (10 : ℚ) ^ (top + 1 - (19 : Nat)) < 2 ^ x.exponent / 2 := by
    have hlt := x.reads_magnitude.lt hx
    have hp := zpow_pos_two x.exponent
    have e : (10 : ℚ) ^ (top + 1 - (19 : Nat)) = 10 ^ top / 10 ^ 18 := by
      rw [← zpow_natCast, ← zpow_sub₀ (by norm_num)]
      congr 1
      push_cast
      ring
    rw [e, div_lt_iff₀ (by norm_num)]
    linarith
  cases hs : x.interval.search (top + 1) 20 with
  | none =>
    exact absurd hs (search_ne_none (by decide) (onGrid_ne_none hm hfine))
  | some d =>
    obtain ⟨hd, hh⟩ := holds_of_search hs
    exact ⟨hd, (holds_iff hm _ _).1 hh⟩

end Binary64

end MarkdownModule

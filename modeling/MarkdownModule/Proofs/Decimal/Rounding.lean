import Mathlib
import MarkdownModule.Decimal.Binary64

/-!
# Rounding to binary numbers

`Binary64.round` compares integers only.  Here its result is described by the rational number that is
rounded.

* `Binary64.exponentFor_eq`     the exponent at which a number has 53 bits before the point
* `Binary64.canonical_of_round` the result has the one form that a binary number can have
* `Binary64.round_eq`           a number in the interval of a binary number rounds to it
-/

namespace MarkdownModule

theorem twoTo_eq (k : Nat) : twoTo k = 2 ^ k := rfl
theorem tenTo_eq (k : Nat) : tenTo k = 10 ^ k := rfl

theorem twoTo_52 : twoTo 52 = 4503599627370496 := by rw [twoTo_eq]; norm_num
theorem twoTo_53 : twoTo 53 = 9007199254740992 := by rw [twoTo_eq]; norm_num

namespace Binary64

theorem zpow_pos_two (e : Int) : (0 : ℚ) < 2 ^ e := zpow_pos (by norm_num) e

theorem zpow_lt_two {a b : Int} : (2 : ℚ) ^ a < 2 ^ b ↔ a < b :=
  zpow_lt_zpow_iff_right₀ (by norm_num)

/-! ## fractions -/

theorem scaled_pos (num : Nat) {den : Nat} (hd : 0 < den) (e : Int) : 0 < (scaled num den e).2 := by
  cases e with
  | ofNat k => exact Nat.mul_pos hd (Nat.pow_pos (by decide))
  | negSucc k => exact hd

theorem scaled_eq (num den : Nat) (e : Int) :
    ((scaled num den e).1 : ℚ) / (scaled num den e).2 = (num : ℚ) / den / 2 ^ e := by
  cases e with
  | ofNat k =>
    show (num : ℚ) / ((den * twoTo k : Nat) : ℚ) = _
    rw [twoTo_eq, Nat.cast_mul, Nat.cast_pow, Nat.cast_ofNat, div_div]
    rfl
  | negSucc k =>
    show ((num * twoTo (k + 1) : Nat) : ℚ) / den = _
    rw [twoTo_eq, Nat.cast_mul, Nat.cast_pow, Nat.cast_ofNat, zpow_negSucc]
    field_simp

theorem log2_bounds {n : Nat} (h : 0 < n) :
    (2 : ℚ) ^ (Nat.log2 n : Int) ≤ n ∧ (n : ℚ) < 2 ^ ((Nat.log2 n : Int) + 1) := by
  have h1 : 2 ^ Nat.log2 n ≤ n := Nat.log2_self_le (by omega)
  have h2 : n < 2 ^ (Nat.log2 n + 1) := Nat.lt_log2_self
  constructor
  · rw [zpow_natCast]
    exact_mod_cast h1
  · rw [← Nat.cast_one, ← Nat.cast_add, zpow_natCast]
    exact_mod_cast h2

/-! ## the exponent -/

/-- the number has at most 53 bits before the point at the exponent, and not fewer unless the exponent
is the least one -/
structure Fits (r : ℚ) (e : Int) : Prop where
  least : minExponent ≤ e
  lt : r < 2 ^ 53 * 2 ^ e
  le : e = minExponent ∨ 2 ^ 52 * 2 ^ e ≤ r

theorem Fits.unique {r : ℚ} {a b : Int} (ha : Fits r a) (hb : Fits r b) : a = b := by
  have hle : ∀ {a b : Int}, Fits r a → Fits r b → a ≤ b := by
    intro a b ha hb
    rcases ha.le with e | h
    · exact e ▸ hb.least
    · have hlt := h.trans_lt hb.lt
      have h2 : (2 : ℚ) ^ a < 2 ^ (b + 1) := by
        rw [zpow_add_one₀ (by norm_num)]
        linarith
      have := zpow_lt_two.1 h2
      omega
  exact le_antisymm (hle ha hb) (hle hb ha)

/-- the estimate from the lengths of both numbers is too great by one at most -/
theorem estimate_bounds {num den : Nat} (hn : 0 < num) (hd : 0 < den) :
    let e : Int := (Nat.log2 num : Int) - (Nat.log2 den : Int) - 52
    2 ^ 51 * 2 ^ e < (num : ℚ) / den ∧ (num : ℚ) / den < 2 ^ 53 * 2 ^ e := by
  intro e
  obtain ⟨hn1, hn2⟩ := log2_bounds hn
  obtain ⟨hd1, hd2⟩ := log2_bounds hd
  have hd0 : (0 : ℚ) < den := by exact_mod_cast hd
  have hsplit : ∀ k : Nat, (2 : ℚ) ^ k * 2 ^ e * 2 ^ (Nat.log2 den : Int) =
      2 ^ ((k : Int) - 52 + Nat.log2 num) := by
    intro k
    rw [← zpow_natCast, ← zpow_add₀ (by norm_num), ← zpow_add₀ (by norm_num)]
    congr 1
    omega
  have h51 := hsplit 51
  have h53 := hsplit 53
  constructor
  · rw [lt_div_iff₀ hd0]
    calc (2 : ℚ) ^ 51 * 2 ^ e * den
        < 2 ^ 51 * 2 ^ e * 2 ^ ((Nat.log2 den : Int) + 1) := by
          have := zpow_pos_two e
          gcongr
      _ = 2 ^ 51 * 2 ^ e * 2 ^ (Nat.log2 den : Int) * 2 := by
          rw [zpow_add_one₀ (by norm_num)]
          ring
      _ = 2 ^ ((Nat.log2 num : Int)) := by
          rw [h51, ← zpow_add_one₀ (by norm_num)]
          congr 1
          push_cast
          omega
      _ ≤ num := hn1
  · rw [div_lt_iff₀ hd0]
    calc (num : ℚ) < 2 ^ ((Nat.log2 num : Int) + 1) := hn2
      _ = 2 ^ 53 * 2 ^ e * 2 ^ (Nat.log2 den : Int) := by
          rw [h53]
          congr 1
          push_cast
          omega
      _ ≤ 2 ^ 53 * 2 ^ e * den := by
          have := zpow_pos_two e
          gcongr

theorem fits_exponentFor {num den : Nat} (hn : 0 < num) (hd : 0 < den) :
    Fits ((num : ℚ) / den) (exponentFor num den) := by
  obtain ⟨h1, h2⟩ := estimate_bounds hn hd
  unfold exponentFor
  dsimp only at h1 h2 ⊢
  generalize (Nat.log2 num : Int) - (Nat.log2 den : Int) - 52 = e at h1 h2
  have hpos := scaled_pos num hd e
  have hq := scaled_eq num den e
  generalize scaled num den e = t at hpos hq
  have hpos' : (0 : ℚ) < t.2 := by exact_mod_cast hpos
  have htest : t.1 < t.2 * twoTo 52 ↔ (num : ℚ) / den < 2 ^ 52 * 2 ^ e := by
    rw [← div_lt_iff₀ (zpow_pos_two e), ← hq, div_lt_iff₀ hpos', twoTo_eq]
    constructor
    · intro h
      rw [mul_comm]
      exact_mod_cast h
    · intro h
      rw [mul_comm] at h
      exact_mod_cast h
  have hprev : (2 : ℚ) ^ e = 2 ^ (e - 1) * 2 := by
    rw [← zpow_add_one₀ (by norm_num), sub_add_cancel]
  have hfit : ∀ a : Int, 2 ^ 52 * 2 ^ a ≤ (num : ℚ) / den → (num : ℚ) / den < 2 ^ 53 * 2 ^ a →
      Fits ((num : ℚ) / den) (max minExponent a) := by
    intro a ha1 ha2
    refine ⟨le_max_left _ _, ?_, ?_⟩
    · refine ha2.trans_le ?_
      have : (2 : ℚ) ^ a ≤ 2 ^ max minExponent a :=
        zpow_le_zpow_right₀ (by norm_num) (le_max_right _ _)
      linarith
    · rcases le_total a minExponent with h | h
      · exact .inl (max_eq_left h)
      · rw [max_eq_right h]
        exact .inr ha1
  by_cases hlt : t.1 < t.2 * twoTo 52
  · rw [if_pos hlt]
    have h3 := htest.1 hlt
    rw [hprev] at h1 h3
    exact hfit (e - 1) (by linarith) (by linarith)
  · rw [if_neg hlt]
    exact hfit e (not_lt.1 fun h => hlt (htest.2 h)) h2

theorem exponentFor_eq {num den : Nat} (hn : 0 < num) (hd : 0 < den) {e : Int}
    (h : Fits ((num : ℚ) / den) e) : exponentFor num den = e :=
  (fits_exponentFor hn hd).unique h

/-! ## the significand -/

theorem roundHalfEven_eq {n d k : Nat} (hd : 0 < d) (h1 : 2 * (k * d) ≤ 2 * n + d)
    (h2 : 2 * n ≤ 2 * (k * d) + d)
    (he : 2 * (k * d) = 2 * n + d ∨ 2 * n = 2 * (k * d) + d → k % 2 = 0) :
    roundHalfEven n d = k := by
  have hn : d * (n / d) + n % d = n := Nat.div_add_mod n d
  have hr : n % d < d := Nat.mod_lt n hd
  unfold roundHalfEven
  dsimp only
  generalize n / d = q at hn
  generalize n % d = r at hn hr
  have hq : k = q ∨ k = q + 1 := by
    have hle : q ≤ k := by
      by_contra hlt
      have := Nat.mul_le_mul_right d (show k + 1 ≤ q by omega)
      rw [Nat.add_mul, Nat.mul_comm q d] at this
      omega
    have hge : k ≤ q + 1 := by
      by_contra hlt
      have := Nat.mul_le_mul_right d (show q + 2 ≤ k by omega)
      rw [Nat.add_mul, Nat.mul_comm q d] at this
      omega
    omega
  rcases hq with rfl | rfl
  · rw [Nat.mul_comm k d] at h1 h2 he
    split
    · rfl
    · split
      · omega
      · rw [if_pos (he (by omega))]
  · rw [Nat.add_mul, Nat.mul_comm q d] at h1 h2 he
    split
    · omega
    · split
      · rfl
      · rw [if_neg]
        have := he (by omega)
        omega

theorem roundHalfEven_bounds (n d : Nat) :
    n / d ≤ roundHalfEven n d ∧ roundHalfEven n d ≤ n / d + 1 := by
  unfold roundHalfEven
  dsimp only
  split
  · omega
  · split
    · omega
    · split <;> omega

/-- the rational number lies nearest to the natural number, and is a tie only if that is even -/
structure Nearest (v : ℚ) (k : Nat) : Prop where
  low : (k : ℚ) - 1 / 2 ≤ v
  high : v ≤ k + 1 / 2
  tie : v = k - 1 / 2 ∨ v = k + 1 / 2 → k % 2 = 0

theorem roundHalfEven_of_nearest {n d k : Nat} (hd : 0 < d) (h : Nearest ((n : ℚ) / d) k) :
    roundHalfEven n d = k := by
  have hd' : (0 : ℚ) < d := by exact_mod_cast hd
  have hv : (n : ℚ) / d * d = n := div_mul_cancel₀ _ hd'.ne'
  obtain ⟨h1, h2, h3⟩ := h
  generalize (n : ℚ) / d = v at hv h1 h2 h3
  refine roundHalfEven_eq hd ?_ ?_ fun he => h3 ?_
  · have : ((k : ℚ) - 1 / 2) * d ≤ v * d := by gcongr
    have h : (2 : ℚ) * (k * d) ≤ 2 * n + d := by linarith
    exact_mod_cast h
  · have : v * d ≤ ((k : ℚ) + 1 / 2) * d := by gcongr
    have h : (2 : ℚ) * n ≤ 2 * (k * d) + d := by linarith
    exact_mod_cast h
  · rcases he with he | he
    · left
      have h : (2 : ℚ) * (k * d) = 2 * n + d := by exact_mod_cast he
      have : (v - (k - 1 / 2)) * d = 0 := by linarith
      have := (mul_eq_zero.1 this).resolve_right hd'.ne'
      linarith
    · right
      have h : (2 : ℚ) * n = 2 * (k * d) + d := by exact_mod_cast he
      have : (v - (k + 1 / 2)) * d = 0 := by linarith
      have := (mul_eq_zero.1 this).resolve_right hd'.ne'
      linarith

/-! ## rounding -/

theorem round_eq_pack {num den : Nat} (hn : 0 < num) (hd : 0 < den) (negative : Bool) :
    round negative num den =
      pack negative
        (roundHalfEven (scaled num den (exponentFor num den)).1
          (scaled num den (exponentFor num den)).2) (exponentFor num den) := by
  have h : ¬ (decide (num = 0) || decide (den = 0)) = true := by
    rw [Bool.or_eq_true, decide_eq_true_eq, decide_eq_true_eq]
    omega
  exact if_neg h

theorem round_of_nearest {num den : Nat} (hn : 0 < num) (hd : 0 < den) (negative : Bool) {e : Int}
    {k : Nat} (he : Fits ((num : ℚ) / den) e) (hk : Nearest ((num : ℚ) / den / 2 ^ e) k) :
    round negative num den = pack negative k e := by
  rw [round_eq_pack hn hd, exponentFor_eq hn hd he]
  rw [← scaled_eq] at hk
  rw [roundHalfEven_of_nearest (scaled_pos num hd e) hk]

theorem canonical_zero (negative : Bool) : (zero negative).Canonical :=
  ⟨pow_pos (by norm_num) 53, by show minExponent ≤ maxExponent; decide, .inl rfl⟩

theorem canonical_of_pack {negative : Bool} {m : Nat} {e : Int} {x : Binary64}
    (hm : m ≤ twoTo 53) (hleast : minExponent ≤ e) (hle : e = minExponent ∨ twoTo 52 ≤ m)
    (h : pack negative m e = some x) : x.Canonical := by
  unfold pack at h
  unfold Canonical
  rw [twoTo_52] at h hle ⊢
  rw [twoTo_53] at h hm ⊢
  dsimp only at h
  by_cases hcarry : m = 9007199254740992
  · rw [if_pos hcarry] at h
    split at h
    · next hmax =>
      rw [Option.some.injEq] at h
      subst h
      refine ⟨by norm_num, hmax, .inr ⟨Nat.le_refl _, ?_⟩⟩
      show minExponent ≤ e + 1
      omega
    · exact absurd h (by simp)
  · rw [if_neg hcarry] at h
    split at h
    · next hmax =>
      rw [Option.some.injEq] at h
      subst h
      exact ⟨by show m < _; omega, hmax, hle.imp_right fun h => ⟨h, hleast⟩⟩
    · exact absurd h (by simp)

/-- **A rounded number is in canonical form.** -/
theorem canonical_of_round {negative : Bool} {num den : Nat} {x : Binary64}
    (h : round negative num den = some x) : x.Canonical := by
  by_cases h0 : (decide (num = 0) || decide (den = 0)) = true
  · rw [round, if_pos h0, Option.some.injEq] at h
    exact h ▸ canonical_zero negative
  · rw [Bool.or_eq_true, decide_eq_true_eq, decide_eq_true_eq] at h0
    have hn : 0 < num := by omega
    have hd : 0 < den := by omega
    have hfit := fits_exponentFor hn hd
    rw [round_eq_pack hn hd] at h
    have hpos := scaled_pos num hd (exponentFor num den)
    have hq := scaled_eq num den (exponentFor num den)
    have hb := roundHalfEven_bounds (scaled num den (exponentFor num den)).1
      (scaled num den (exponentFor num den)).2
    generalize exponentFor num den = e at *
    generalize scaled num den e = t at *
    have hpos' : (0 : ℚ) < t.2 := by exact_mod_cast hpos
    have hlt : t.1 / t.2 < twoTo 53 := by
      rw [Nat.div_lt_iff_lt_mul hpos, twoTo_eq]
      have h1 := hfit.lt
      rw [← div_lt_iff₀ (zpow_pos_two e), ← hq, div_lt_iff₀ hpos'] at h1
      exact_mod_cast h1
    have hle : e = minExponent ∨ twoTo 52 ≤ t.1 / t.2 := by
      refine hfit.le.imp_right fun h1 => ?_
      rw [Nat.le_div_iff_mul_le hpos, twoTo_eq]
      rw [← le_div_iff₀ (zpow_pos_two e), ← hq, le_div_iff₀ hpos'] at h1
      exact_mod_cast h1
    exact canonical_of_pack (hb.2.trans hlt) hfit.least
      (hle.imp_right fun h1 => h1.trans hb.1) h

/-- **A decimal is read in canonical form.** -/
theorem canonical_of_ofDecimal {negative : Bool} {digits : Nat} {power : Int} {x : Binary64}
    (h : ofDecimal negative digits power = some x) : x.Canonical := by
  unfold ofDecimal at h
  dsimp only at h
  split at h
  · exact Option.some.inj h ▸ canonical_zero negative
  · split at h
    · exact nomatch h
    · cases power with
      | ofNat k => exact canonical_of_round h
      | negSucc k => exact canonical_of_round h

end Binary64

end MarkdownModule

import MarkdownModule.Decimal.Power

/-!
# Binary floating-point numbers of 64 bits

A finite number is `± significand · 2 ^ exponent` with at most 53 significant bits.

* `Binary64.round`     the number nearest to a quotient, a tie going to the even significand
* `Binary64.ofNat`     the number nearest to a natural number
* `Binary64.mul`, `Binary64.div`  the product and the quotient, rounded
* `Binary64.ofDecimal` the number nearest to `digits · 10 ^ power`
-/

namespace MarkdownModule

/-- a finite binary number: `± significand · 2 ^ exponent` -/
structure Binary64 where
  negative : Bool
  significand : Nat
  exponent : Int
deriving DecidableEq

namespace Binary64

def minExponent : Int := -1074

def maxExponent : Int := 971

def zero (negative : Bool) : Binary64 := ⟨negative, 0, minExponent⟩

/-- whether the number is zero, of either sign -/
def isZero (x : Binary64) : Bool := x.significand == 0

/-- whether the form is the one that `round` gives: 53 bits, or fewer at the least exponent -/
def Canonical (x : Binary64) : Prop :=
  x.significand < twoTo 53 ∧ x.exponent ≤ maxExponent ∧
    (x.exponent = minExponent ∨ (twoTo 52 ≤ x.significand ∧ minExponent ≤ x.exponent))

/-! ## rounding -/

/-- the natural number nearest to `num / den`, a tie going to the even one -/
def roundHalfEven (num den : Nat) : Nat :=
  let q := num / den
  let r := num % den
  if 2 * r < den then q
  else if den < 2 * r then q + 1
  else if q % 2 = 0 then q else q + 1

/-- `num / den / 2 ^ e` as a fraction of natural numbers -/
def scaled (num den : Nat) (e : Int) : Nat × Nat :=
  match e with
  | .ofNat k => (num, den * twoTo k)
  | .negSucc k => (num * twoTo (k + 1), den)

/-- the exponent at which `num / den` has 53 bits before the point, or the least exponent -/
def exponentFor (num den : Nat) : Int :=
  let e : Int := (Nat.log2 num : Int) - (Nat.log2 den : Int) - 52
  let (n, d) := scaled num den e
  max minExponent (if n < d * twoTo 52 then e - 1 else e)

/-- a significand of at most 53 bits, or just above, with its exponent, if that is not too large -/
def pack (negative : Bool) (m : Nat) (e : Int) : Option Binary64 :=
  let x : Binary64 := if m = twoTo 53 then ⟨negative, twoTo 52, e + 1⟩ else ⟨negative, m, e⟩
  if x.exponent ≤ maxExponent then some x else none

/-- the number nearest to `± num / den`, if it is not too large -/
def round (negative : Bool) (num den : Nat) : Option Binary64 :=
  if num = 0 || den = 0 then some (zero negative)
  else
    let e := exponentFor num den
    let t := scaled num den e
    pack negative (roundHalfEven t.1 t.2) e

/-- the number nearest to `± num · 2 ^ e / den`, if it is not too large -/
def roundScaled (negative : Bool) (num : Nat) (e : Int) (den : Nat) : Option Binary64 :=
  let (n, d) := scaled num den (-e)
  round negative n d

def ofNat (n : Nat) : Option Binary64 := round false n 1

/-- the product, rounded, if it is not too large -/
def mul (x y : Binary64) : Option Binary64 :=
  roundScaled (x.negative != y.negative) (x.significand * y.significand)
    (x.exponent + y.exponent) 1

/-- the quotient by a number that is not zero, rounded, if it is not too large -/
def div (x y : Binary64) : Option Binary64 :=
  roundScaled (x.negative != y.negative) x.significand (x.exponent - y.exponent) y.significand

def neg (x : Binary64) : Binary64 := { x with negative := !x.negative }

/-! ## decimals -/

/-- the number nearest to `± digits · 10 ^ power`, if it is not too large -/
def ofDecimal (negative : Bool) (digits : Nat) (power : Int) : Option Binary64 :=
  let places : Int := (Nat.toDigits 10 digits).length
  if digits = 0 || power + places < -400 then some (zero negative)
  else if 400 < power + places then none
  else
    match power with
    | .ofNat k => round negative (digits * tenTo k) 1
    | .negSucc k => round negative digits (tenTo (k + 1))

end Binary64

end MarkdownModule

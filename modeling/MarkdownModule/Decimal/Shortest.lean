import MarkdownModule.Decimal.Binary64

/-!
# The shortest decimal of a binary number

`Binary64.shortest` gives the fewest decimal digits that read back as the number, and of those the
nearest ones.  A decimal reads back when it lies in the interval of the numbers that round to the
given one; the ends of the interval belong to it when the significand is even.
-/

namespace MarkdownModule

/-- `digits · 10 ^ power` -/
structure Decimal where
  digits : Nat
  power : Int
deriving DecidableEq

namespace Binary64

/-- four times the number and its distances to both ends of its interval, over one denominator -/
structure Interval where
  low : Nat
  value : Nat
  high : Nat
  den : Nat
  /-- whether the ends belong to the interval -/
  closed : Bool

/-- the distance of the lower end of the interval, in quarters of a unit in the last place: the
numbers below a power of two lie closer together -/
def below (x : Binary64) : Nat :=
  if x.significand = twoTo 52 && minExponent < x.exponent then 1 else 2

/-- the interval of the magnitudes that round to the magnitude of `x` -/
def interval (x : Binary64) : Interval :=
  let m := x.significand
  let t := scaled 1 4 (-x.exponent)
  ⟨(4 * m - x.below) * t.1, 4 * m * t.1, (4 * m + 2) * t.1, t.2, m % 2 = 0⟩

/-- `digits · 10 ^ power` over the denominator of the interval, as a fraction -/
def Interval.overDen (i : Interval) (digits : Nat) (power : Int) : Nat × Nat :=
  match power with
  | .ofNat k => (digits * tenTo k * i.den, 1)
  | .negSucc k => (digits * i.den, tenTo (k + 1))

def Interval.holds (i : Interval) (digits : Nat) (power : Int) : Bool :=
  let t := i.overDen digits power
  if i.closed then i.low * t.2 ≤ t.1 && t.1 ≤ i.high * t.2
  else i.low * t.2 < t.1 && t.1 < i.high * t.2

/-- the value as a fraction in units of `10 ^ power` -/
def Interval.inUnits (i : Interval) (power : Int) : Nat × Nat :=
  match power with
  | .ofNat k => (i.value, i.den * tenTo k)
  | .negSucc k => (i.value * tenTo (k + 1), i.den)

/-- the decimal in units of `10 ^ power` nearest to the value among those in the interval -/
def Interval.onGrid (i : Interval) (power : Int) : Option Decimal :=
  let t := i.inUnits power
  let q := t.1 / t.2
  let near := roundHalfEven t.1 t.2
  let far := if near = q then q + 1 else q
  if near ≠ 0 && i.holds near power then some ⟨near, power⟩
  else if far ≠ 0 && i.holds far power then some ⟨far, power⟩
  else none

/-- the first decimal found on the grids of `10 ^ power`, `10 ^ (power - 1)`, and so on -/
def Interval.search (i : Interval) (power : Int) : Nat → Option Decimal
  | 0 => none
  | fuel + 1 =>
    match i.onGrid power with
    | some d => some d
    | none => i.search (power - 1) fuel

/-- whether a power of ten is at most `n / d` -/
def isPowerBelow (n d : Nat) (power : Int) : Bool :=
  match power with
  | .ofNat k => d * tenTo k ≤ n
  | .negSucc k => d ≤ n * tenTo (k + 1)

/-- the greatest power of ten that is at most `n / d`, as an exponent, given an estimate above it -/
def leadingPower (n d : Nat) (estimate : Int) : Nat → Int
  | 0 => estimate
  | fuel + 1 =>
    if isPowerBelow n d estimate then estimate else leadingPower n d (estimate - 1) fuel

/-- the fewest digits that read back as the magnitude of a number that is not zero -/
def shortest (x : Binary64) : Decimal :=
  let i := x.interval
  let estimate : Int := (Nat.toDigits 10 (i.value / i.den)).length
  let top := leadingPower i.value i.den estimate 400
  (i.search (top + 1) 20).getD ⟨0, 0⟩

end Binary64

end MarkdownModule

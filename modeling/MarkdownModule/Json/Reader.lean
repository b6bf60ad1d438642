import MarkdownModule.Json.Syntax

/-!
# Reading JSON values

`Json.parse?` reads a text as a value.  An integer that fits into 64 bits stays an integer, and any
other number is a binary number: the leading digits that fit into 64 bits are rounded, and the
result is scaled by a power of ten and rounded again.

* `Json.Value.ofForm?`  the value of a form, if its numbers and strings have one
* `Json.parse?`         the value of a text; containers may be nested 127 deep
-/

namespace MarkdownModule.Json

/-! ## numbers -/

/-- the digits of a number taken one by one: those that fit into 64 bits, and a power of ten -/
structure Leading where
  /-- the value of the digits that are kept -/
  digits : Nat
  /-- the power of ten by which it is scaled -/
  power : Int

/-- takes the digits before the point; once one does not fit, each only scales -/
def takeInteger (a : Leading) (full : Bool) : Text → Leading
  | [] => a
  | c :: r =>
    let next := a.digits * 10 + (c.toNat - '0'.toNat)
    if full || twoTo 64 ≤ next then takeInteger { a with power := a.power + 1 } true r
    else takeInteger { a with digits := next } false r

/-- takes the digits after the point; once one does not fit, the rest is dropped -/
def takeFraction (a : Leading) : Text → Leading
  | [] => a
  | c :: r =>
    let next := a.digits * 10 + (c.toNat - '0'.toNat)
    if twoTo 64 ≤ next then a else takeFraction ⟨next, a.power - 1⟩ r

/-- the greatest power of ten that is a binary number -/
def greatestPower : Nat := 308

/-- `x · 10 ^ power`, each step rounded; nothing when it is too large -/
def scaleByTen (x : Binary64) (power : Int) : Nat → Option Binary64
  | 0 => some x
  | fuel + 1 =>
    if power.natAbs ≤ greatestPower then do
      let p ← Binary64.ofDecimal false 1 power.natAbs
      if 0 ≤ power then x.mul p else x.div p
    else if x.isZero then some x
    else if 0 ≤ power then none
    else do
      let p ← Binary64.ofDecimal false 1 greatestPower
      scaleByTen (← x.div p) (power + greatestPower) fuel

def Leading.toFloat (negative : Bool) (a : Leading) : Option Binary64 := do
  let x ← scaleByTen (← Binary64.ofNat a.digits) a.power 8
  some (if negative then x.neg else x)

/-- the parts of the characters of a number: sign, digits before and after the point, exponent -/
structure Lexeme where
  negative : Bool
  integer : Text
  /-- absent when there is no point -/
  fraction : Option Text
  /-- absent when there is no exponent part -/
  exponent : Option Int

def digitsValue (ds : Text) : Nat := ds.foldl (fun n c => n * 10 + (c.toNat - '0'.toNat)) 0

/-- whether a minus sign stands in front of a number, and the text after it -/
def takeSign : Text → Bool × Text
  | '-' :: r => (true, r)
  | r => (false, r)

/-- the digits after a point, if there is one, and the text after them -/
def takePoint : Text → Option Text × Text
  | '.' :: r => (some (spanDigits r).1, (spanDigits r).2)
  | r => (none, r)

def exponentValue? : Text → Option Int
  | _ :: '-' :: ds => some (-(digitsValue ds : Int))
  | _ :: '+' :: ds => some (digitsValue ds : Int)
  | _ :: ds => some (digitsValue ds : Int)
  | [] => none

def Lexeme.ofText (s : Text) : Lexeme :=
  let sign := takeSign s
  let integer := spanDigits sign.2
  let point := takePoint integer.2
  ⟨sign.1, integer.1, point.1, exponentValue? point.2⟩

/-- the number that a lexeme stands for; nothing when it is too large -/
def Lexeme.number? (l : Lexeme) : Option Number :=
  let n : Int := if l.negative then -(digitsValue l.integer : Int) else digitsValue l.integer
  if l.fraction.isNone && l.exponent.isNone && fitsWord n && !(l.negative && n == 0) then
    some (.int n)
  else
    let a := takeFraction (takeInteger ⟨0, 0⟩ false l.integer) (l.fraction.getD [])
    ((⟨a.digits, a.power + l.exponent.getD 0⟩ : Leading).toFloat l.negative).map .float

/-! ## values -/

mutual

/-- the value of a form whose containers are nested at most `depth` deep -/
def Value.ofForm? (depth : Nat) : Form → Option Value
  | .null => some .null
  | .bool b => some (.bool b)
  | .number l => ((Lexeme.ofText l).number?).map .number
  | .string us => (unitsText? us).map .string
  | .array items =>
    match depth with
    | 0 => none
    | d + 1 => (itemsOfForms? d items).map .array
  | .object members =>
    match depth with
    | 0 => none
    | d + 1 => (membersOfForms? d members).map fun ms => .object (putAll ms)

def itemsOfForms? (depth : Nat) : List Form → Option (List Value)
  | [] => some []
  | f :: fs => do
    let v ← Value.ofForm? depth f
    let vs ← itemsOfForms? depth fs
    some (v :: vs)

def membersOfForms? (depth : Nat) : List (List StringUnit × Form) → Option (List (Text × Value))
  | [] => some []
  | (k, f) :: fs => do
    let key ← unitsText? k
    let v ← Value.ofForm? depth f
    let ms ← membersOfForms? depth fs
    some ((key, v) :: ms)

end

def maxDepth : Nat := 127

def parse? (s : Text) : Option Value := (parseForm? s).bind (Value.ofForm? maxDepth)

end MarkdownModule.Json

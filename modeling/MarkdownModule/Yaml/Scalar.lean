import MarkdownModule.Json.Reader
import MarkdownModule.Json.Writer
import MarkdownModule.Yaml.Error

/-!
# Values of scalars

A plain scalar stands for null, a truth value, a number or a text, by how it is written; a tag may
ask for one of them.  A row of digits that begins with zero is a text.

* `Yaml.Scalar.ofPlain`  the value of a plain scalar
* `Yaml.Scalar.ofTagged` the value of a scalar with a tag of the standard
-/

namespace MarkdownModule.Yaml

inductive Scalar where
  | null
  | bool (b : Bool)
  | int (n : Int)
  | float (x : Binary64)
  /-- an infinity or the value that is no number -/
  | notFinite
  | text (t : Text)
deriving DecidableEq

namespace Scalar

/-! ## integers -/

/-- the value of a row of digits in a base, if it is one and has some -/
def digits? (base : Nat) (s : Text) : Option Nat :=
  if s.isEmpty then none
  else
    s.foldl
      (fun n c => do
        let d ← Json.hexDigit? c
        if d < base then some ((← n) * base + d) else none)
      (some 0)

/-- the base that a mark in front of the digits gives, and the digits -/
def withBase? : Text → Option (Nat × Text)
  | '0' :: 'x' :: r => some (16, r)
  | '0' :: 'o' :: r => some (8, r)
  | '0' :: 'b' :: r => some (2, r)
  | _ => none

def dropSign : Text → Text
  | '+' :: r => r
  | '-' :: r => r
  | r => r

/-- whether the text is a row of digits that begins with zero, with a sign or without -/
def isPaddedRow (s : Text) : Bool :=
  let t := dropSign s
  1 < t.length && t.head? = some '0' && t.all Char.isDigit

/-- an integer without a minus sign -/
def natural? (s : Text) : Option Nat :=
  let t := match s with
    | '+' :: r => r
    | r => r
  match (withBase? t).bind fun b => digits? b.1 b.2 with
  | some n => some n
  | none => if isPaddedRow s then none else digits? 10 t

/-- an integer with a minus sign -/
def negative? : Text → Option Nat
  | '-' :: t =>
    match (withBase? t).bind fun b => digits? b.1 b.2 with
    | some n => some n
    | none => if isPaddedRow ('-' :: t) then none else digits? 10 t
  | _ => none

/-- an integer; nothing when it does not fit into 128 bits, an error when it does not fit into 64 -/
def integer? (s : Text) : Option (Except Error Int) :=
  match natural? s, negative? s with
  | some n, _ =>
    if n < twoTo 64 then some (.ok n) else if n < twoTo 128 then some (.error .wrongScalar) else none
  | none, some n =>
    if n ≤ twoTo 63 then some (.ok (-n)) else if n ≤ twoTo 127 then some (.error .wrongScalar) else none
  | none, none => none

/-! ## floats -/

/-- a decimal without its sign: its digits and a power of ten -/
def decimal? (s : Text) : Option (Nat × Int) := do
  let (whole, r) := Json.spanDigits s
  let (part, r) := match r with
    | '.' :: t => Json.spanDigits t
    | t => ([], t)
  if whole.isEmpty && part.isEmpty then none
  else
    let e ← match r with
      | [] => some (0 : Int)
      | c :: t =>
        if c = 'e' || c = 'E' then
          match t with
          | '-' :: ds => (digits? 10 ds).map fun n => -(n : Int)
          | '+' :: ds => (digits? 10 ds).map fun n => (n : Int)
          | ds => (digits? 10 ds).map fun n => (n : Int)
        else none
    some (Json.digitsValue (whole ++ part), e - part.length)

def finite? (s : Text) : Option Binary64 :=
  match s with
  | '-' :: r => (decimal? r).bind fun d => Binary64.ofDecimal true d.1 d.2
  | '+' :: r => (decimal? r).bind fun d => Binary64.ofDecimal false d.1 d.2
  | r => (decimal? r).bind fun d => Binary64.ofDecimal false d.1 d.2

/-- the ways to write an infinity, without a plus sign -/
def infinityNames : List String := [".inf", ".Inf", ".INF"]

/-- the ways to write the value that is no number -/
def notNumberNames : List String := [".nan", ".NaN", ".NAN"]

def float? (s : Text) : Option Scalar :=
  let unsigned := match s with
    | '+' :: r => r
    | r => r
  let isInfinity (t : Text) : Bool := infinityNames.contains (String.ofList t)
  if isInfinity unsigned || (s.head? = some '-' && isInfinity (s.drop 1))
      || notNumberNames.contains (String.ofList s) then some .notFinite
  else if s.head? = some '+' && (unsigned.head? = some '+' || unsigned.head? = some '-') then none
  else (finite? s).map .float

/-! ## values -/

def isNullWord (s : Text) : Bool := ["null", "Null", "NULL", "~"].contains (String.ofList s)

def bool? (s : Text) : Option Bool :=
  if ["true", "True", "TRUE"].contains (String.ofList s) then some true
  else if ["false", "False", "FALSE"].contains (String.ofList s) then some false
  else none

def ofPlain (s : Text) : Except Error Scalar :=
  if s.isEmpty || isNullWord s then .ok .null
  else
    match bool? s with
    | some b => .ok (.bool b)
    | none =>
      match integer? s with
      | some n => n.map .int
      | none => if isPaddedRow s then .ok (.text s) else .ok ((float? s).getD (.text s))

/-- what the names of the tags of the standard begin with -/
def standardTag (name : String) : Text := "tag:yaml.org,2002:".toList ++ name.toList

def expected {α : Type} : Option α → Except Error α
  | some a => .ok a
  | none => .error .wrongScalar

/-- the value of a scalar with a tag that has no exclamation mark -/
def ofTagged (tag s : Text) : Except Error Scalar :=
  if tag = standardTag "bool" then (expected (bool? s)).map .bool
  else if tag = standardTag "int" then
    match integer? s with
    | some n => n.map .int
    | none => .error .wrongScalar
  else if tag = standardTag "float" then expected (float? s)
  else if tag = standardTag "null" then
    if isNullWord s then .ok .null else .error .wrongScalar
  else .ok (.text s)

/-! ## JSON -/

def toJson : Scalar → Json.Value
  | .null | .notFinite => .null
  | .bool b => .bool b
  | .int n => .number (.int n)
  | .float x => .number (.float x)
  | .text t => .string t

def toKey : Scalar → Except Error Text
  | .null | .notFinite => .error .keyNotText
  | .bool true => .ok "true".toList
  | .bool false => .ok "false".toList
  | .int n => .ok (Json.intDigits n)
  | .float x => .ok (Json.writeFloat x)
  | .text t => .ok t

/-- whether two scalars are the same key; a zero has no sign -/
def same (a b : Scalar) : Bool :=
  match a, b with
  | .float x, .float y => x = y || (x.isZero && y.isZero)
  | a, b => a = b

end Scalar

end MarkdownModule.Yaml

import MarkdownModule.Decimal.Shortest
import MarkdownModule.Text.Basic

/-!
# JSON values

The members of an object keep the order in which their keys first occurred, and a key that occurs
again gives its member a new value (`Json.put`).
-/

namespace MarkdownModule.Json

/-- a number: an integer, or a binary number of 64 bits -/
inductive Number where
  | int (n : Int)
  | float (x : Binary64)
deriving DecidableEq

/-- whether an integer fits into 64 bits, signed or unsigned -/
def fitsWord (n : Int) : Bool := -(twoTo 63 : Int) ≤ n && n < twoTo 64

inductive Value where
  | null
  | bool (b : Bool)
  | number (n : Number)
  | string (s : Text)
  | array (items : List Value)
  | object (members : List (Text × Value))

/-- the members after one more is written; a key that is there keeps its place -/
def put (key : Text) (v : Value) : List (Text × Value) → List (Text × Value)
  | [] => [(key, v)]
  | (k, w) :: rest => if k = key then (k, v) :: rest else (k, w) :: put key v rest

theorem keys_put (key : Text) (v : Value) (ms : List (Text × Value)) :
    (put key v ms).map Prod.fst =
      if key ∈ ms.map Prod.fst then ms.map Prod.fst else ms.map Prod.fst ++ [key] := by
  induction ms with
  | nil => simp [put]
  | cons m ms ih =>
    obtain ⟨k, w⟩ := m
    by_cases h : k = key
    · simp [put, h]
    · have h' : ¬ key = k := fun e => h e.symm
      by_cases hm : key ∈ ms.map Prod.fst <;> simp_all [put]

/-- the members that a list of writes leaves -/
def putAll (ms : List (Text × Value)) : List (Text × Value) :=
  ms.foldl (fun acc m => put m.1 m.2 acc) []

namespace Value

def emptyObject : Value := .object []

/-- the members of an object, none for any other value -/
def members : Value → List (Text × Value)
  | .object ms => ms
  | _ => []

end Value

end MarkdownModule.Json

import MarkdownModule.Json.Reader

/-!
# Records in JSON

A record is written as an object with named fields, in any order, or as an array of its fields in
the order of their declaration.  Fields that a record does not have are ignored, and their values
only have to be well formed.  A field may not be given twice.

* `Json.Record.read?`  the fields that are given, by name
* `Json.Record.field?`, `Json.Record.need?`  the value of a field, read by a reader of values
-/

namespace MarkdownModule.Json

/-- the fields of a record that a text gives -/
abbrev Record := List (String × Form)

namespace Record

/-- the members of an object whose key is the name of a field; nothing when a key is no text -/
def select? (names : List String) : List (List StringUnit × Form) → Option Record
  | [] => some []
  | (k, v) :: ms => do
    let key ← unitsText? k
    let rest ← select? names ms
    some (if names.contains (String.ofList key) then (String.ofList key, v) :: rest else rest)

/-- the fields that a form gives to a record whose fields have these names -/
def read? (names : List String) : Form → Option Record
  | .object ms => do
    let fields ← select? names ms
    if (fields.map Prod.fst).Nodup then some fields else none
  | .array items => if items.length ≤ names.length then some (names.zip items) else none
  | _ => none

/-- the value of a field, or a default when the field is missing -/
def field? {α : Type} (r : Record) (name : String) (read : Form → Option α) (default : α) :
    Option α :=
  match r.lookup name with
  | none => some default
  | some f => read f

/-- the value of a field that may not be missing -/
def need? {α : Type} (r : Record) (name : String) (read : Form → Option α) : Option α :=
  (r.lookup name).bind read

end Record

/-! ## readers of values -/

namespace Form

def text? : Form → Option Text
  | .string us => unitsText? us
  | _ => none

def bool? : Form → Option Bool
  | .bool b => some b
  | _ => none

/-- a value that may be null -/
def optional? {α : Type} (read : Form → Option α) : Form → Option (Option α)
  | .null => some none
  | f => (read f).map some

def list? {α : Type} (read : Form → Option α) : Form → Option (List α)
  | .array items => items.mapM read
  | _ => none

end Form

/-! ## writers of values -/

namespace Value

def ofText? (s : Option Text) : Value := (s.map string).getD null

def ofBool? (b : Option Bool) : Value := (b.map bool).getD null

def ofFields (fields : List (String × Value)) : Value :=
  object (fields.map fun f => (f.1.toList, f.2))

end Value

end MarkdownModule.Json

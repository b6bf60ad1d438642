import MarkdownModule.Yaml.Node
import MarkdownModule.Yaml.Scalar
import MarkdownModule.Yaml.Token.List

/-!
# The JSON value of a YAML text

`Yaml.load` reads a text as one document.  Every alias is replaced by the node that it stands for.

Anchors are numbered: a new name takes the number of names so far, and so does a name that is given
again, whose number the next new name then takes over.  An alias stands for the node that the whole
document gives to its number.

* `Yaml.resolve`  a node whose aliases are numbers
* `Yaml.load`     the value of a text, if its collections are nested at most 128 deep and its aliases
                  are used at most a hundred times for each event of the document
-/

namespace MarkdownModule.Yaml

/-! ## anchors -/

/-- a node whose aliases are numbers -/
inductive Resolved where
  | alias (number : Nat)
  | scalar (tag : Option Text) (text : Text) (plain : Bool)
  | sequence (tag : Option Text) (items : List Resolved)
  | mapping (tag : Option Text) (pairs : List (Resolved × Resolved))

structure Anchors where
  /-- the number of each name -/
  numbers : List (Text × Nat) := []
  /-- the anchored node of each number, as its place in the order of the anchored nodes -/
  owners : List (Nat × Nat) := []
  /-- how many nodes have an anchor so far -/
  count : Nat := 0
  /-- the anchored nodes that are complete, by their place -/
  nodes : List (Nat × Resolved) := []
  /-- how many events have been read -/
  events : Nat := 0

namespace Anchors

/-- the numbers after a name takes one -/
def giveNumber (name : Text) (n : Nat) : List (Text × Nat) → List (Text × Nat)
  | [] => [(name, n)]
  | (m, k) :: rest => if m = name then (m, n) :: rest else (m, k) :: giveNumber name n rest

/-- the anchors after a node begins -/
def enter (a : Anchors) (events : Nat) : Option Text → Anchors
  | none => { a with events := a.events + events }
  | some name =>
    let n := a.numbers.length
    { a with
      numbers := giveNumber name n a.numbers
      owners := (n, a.count) :: a.owners
      count := a.count + 1
      events := a.events + events }

/-- the anchors after the node that began at `before` is complete -/
def leave (a : Anchors) (before : Nat) (anchor : Option Text) (node : Resolved) : Anchors :=
  if anchor.isSome then { a with nodes := (before, node) :: a.nodes } else a

def node? (a : Anchors) (number : Nat) : Option Resolved :=
  (a.owners.lookup number).bind fun place => a.nodes.lookup place

end Anchors

mutual

/-- the node with its aliases as numbers, and the anchors after it -/
def resolve (a : Anchors) : Node → Except Error (Resolved × Anchors)
  | .alias name =>
    match a.numbers.lookup name with
    | some n => .ok (.alias n, a.enter 1 none)
    | none => .error .unknownAnchor
  | .scalar p text plain =>
    let node := Resolved.scalar p.tag text plain
    .ok (node, (a.enter 1 p.anchor).leave a.count p.anchor node)
  | .sequence p items => do
    let (rs, b) ← resolveItems (a.enter 2 p.anchor) items
    let node := Resolved.sequence p.tag rs
    .ok (node, b.leave a.count p.anchor node)
  | .mapping p pairs => do
    let (rs, b) ← resolvePairs (a.enter 2 p.anchor) pairs
    let node := Resolved.mapping p.tag rs
    .ok (node, b.leave a.count p.anchor node)

def resolveItems (a : Anchors) : List Node → Except Error (List Resolved × Anchors)
  | [] => .ok ([], a)
  | n :: ns => do
    let (r, a) ← resolve a n
    let (rs, a) ← resolveItems a ns
    .ok (r :: rs, a)

def resolvePairs (a : Anchors) :
    List (Node × Node) → Except Error (List (Resolved × Resolved) × Anchors)
  | [] => .ok ([], a)
  | (k, v) :: ns => do
    let (k, a) ← resolve a k
    let (v, a) ← resolve a v
    let (rs, a) ← resolvePairs a ns
    .ok ((k, v) :: rs, a)

end

/-! ## values -/

/-- the tag of a node, if it is one of the document's own -/
def ownTag? : Option Text → Option Text
  | some ('!' :: r) => some ('!' :: r)
  | _ => none

/-- the key that stands for a tag of the document's own: one mark and the name -/
def tagKey : Text → Text
  | ['!'] => ['!', '!']
  | '!' :: r => '!' :: r
  | t => '!' :: t

/-- a value in an object whose one key is the tag -/
def wrapTag (tag : Option Text) (v : Json.Value) : Json.Value :=
  match ownTag? tag with
  | some t => .object [(tagKey t, v)]
  | none => v

def scalarValue (tag : Option Text) (text : Text) (plain : Bool) : Except Error Scalar :=
  match tag with
  | some ('!' :: _) | none => if plain then Scalar.ofPlain text else .ok (.text text)
  | some t => Scalar.ofTagged t text

/-- an object under construction: the keys as they are written, and the members -/
structure Members where
  keys : List Scalar := []
  members : List (Text × Json.Value) := []

def Members.add (m : Members) (k : Scalar) (v : Json.Value) : Except Error Members := do
  if m.keys.any (Scalar.same k) then .error .duplicateKey
  else .ok ⟨k :: m.keys, Json.put (← k.toKey) v m.members⟩

/-- the uses of aliases so far, after one more use -/
def useAlias (a : Anchors) (uses : Nat) : Except Error Nat :=
  if a.events * 100 < uses + 1 then .error .tooManyAliases else .ok (uses + 1)

/-- a node that is no alias, and the uses of aliases after it is found -/
def follow (a : Anchors) (uses : Nat) (n : Resolved) : Except Error (Resolved × Nat) :=
  match n with
  | .alias number =>
    match a.node? number with
    | some n => (useAlias a uses).map fun u => (n, u)
    | none => .error .tooDeep
  | n => .ok (n, uses)

def keyScalar (a : Anchors) (uses : Nat) (n : Resolved) : Except Error (Scalar × Nat) := do
  match ← follow a uses n with
  | (.scalar tag text plain, uses) =>
    if (ownTag? tag).isSome then .error .keyNotText
    else .ok (← scalarValue tag text plain, uses)
  | _ => .error .keyNotText

def readItems (read : Nat → Resolved → Except Error (Json.Value × Nat)) :
    Nat → List Resolved → Except Error (List Json.Value × Nat)
  | uses, [] => .ok ([], uses)
  | uses, n :: ns => do
    let (v, uses) ← read uses n
    let (vs, uses) ← readItems read uses ns
    .ok (v :: vs, uses)

/-- the object with the members of pairs, whose values are read by `read` -/
def readMembers (a : Anchors) (read : Nat → Resolved → Except Error (Json.Value × Nat)) :
    Nat → Members → List (Resolved × Resolved) → Except Error (Members × Nat)
  | uses, ms, [] => .ok (ms, uses)
  | uses, ms, (k, v) :: ns => do
    let (k, uses) ← keyScalar a uses k
    let (v, uses) ← read uses v
    readMembers a read uses (← ms.add k v) ns

/-- the value of a scalar, in its tag -/
def scalarNode (tag : Option Text) (text : Text) (plain : Bool) : Except Error Json.Value :=
  (scalarValue tag text plain).map fun s => wrapTag tag s.toJson

/-- the value of a node whose collections are nested at most `depth` deep, and the uses of aliases -/
def value (a : Anchors) : Nat → Nat → Resolved → Except Error (Json.Value × Nat)
  | 0, uses, n => do
    match ← follow a uses n with
    | (.scalar tag text plain, uses) => .ok (← scalarNode tag text plain, uses)
    | _ => .error .tooDeep
  | depth + 1, uses, n => do
    match ← follow a uses n with
    | (.scalar tag text plain, uses) => .ok (← scalarNode tag text plain, uses)
    | (.sequence tag items, uses) =>
      let (vs, uses) ← readItems (value a depth) uses items
      .ok (wrapTag tag (.array vs), uses)
    | (.mapping tag pairs, uses) =>
      let (ms, uses) ← readMembers a (value a depth) uses {} pairs
      .ok (wrapTag tag (.object ms.members), uses)
    | (.alias _, _) => .error .tooDeep

def maxDepth : Nat := 128

def load (s : Text) : Except Error Json.Value := do
  let (n, a) ← resolve {} (← Node.ofTokens (← tokens s))
  let (v, _) ← value a maxDepth 0 n
  .ok v

end MarkdownModule.Yaml

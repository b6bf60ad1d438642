import MarkdownModule.Proofs.Json.Quote

/-!
# String literals in a script

`Script.readLiteral?` reads a string in double quotes as a script does.  Its value is a row of 16-bit
code units, which is read as a text when its surrogates stand in pairs.

* `Script.readLiteral?`            the value of the literal at the start of a text, and the text after it
* `Script.escapeSeparators`        a text with its two line separators written as escapes
* `Script.readLiteral?_quote`      a literal is read back up to its own closing quote
* `Script.stringLiteral_faithful`  the literal of a string is safe, and denotes the string
-/

namespace MarkdownModule.Script

/-! ## code units -/

/-- the code units of a code point: one, or a pair of surrogates -/
def unitsOfCode (n : Nat) : List Nat :=
  if n < 0x10000 then [n] else [0xd800 + (n - 0x10000) / 0x400, 0xdc00 + (n - 0x10000) % 0x400]

def codeUnits (c : Char) : List Nat := unitsOfCode c.toNat

/-- the text of a row of code units; nothing when a surrogate stands alone -/
def ofCodeUnits? : List Nat → Option Text
  | [] => some []
  | u :: us =>
    if 0xdc00 ≤ u && u < 0xe000 then none
    else if 0xd800 ≤ u && u < 0xdc00 then
      match us with
      | v :: vs =>
        if 0xdc00 ≤ v && v < 0xe000 then
          (ofCodeUnits? vs).map (Char.ofNat (0x10000 + (u - 0xd800) * 0x400 + (v - 0xdc00)) :: ·)
        else none
      | [] => none
    else (ofCodeUnits? us).map (Char.ofNat u :: ·)

theorem ofCodeUnits?_char (c : Char) (us : List Nat) :
    ofCodeUnits? (codeUnits c ++ us) = (ofCodeUnits? us).map (c :: ·) := by
  have hvalid : c.toNat < 0xd800 ∨ 0xdfff < c.toNat ∧ c.toNat < 0x110000 := c.valid
  unfold codeUnits unitsOfCode
  split
  · rw [List.singleton_append, ofCodeUnits?.eq_def]
    dsimp only
    rw [if_neg (by simp; omega), if_neg (by simp; omega), Char.ofNat_toNat]
  · have e : 0x10000 + (0xd800 + (c.toNat - 0x10000) / 0x400 - 0xd800) * 0x400 +
        (0xdc00 + (c.toNat - 0x10000) % 0x400 - 0xdc00) = c.toNat := by omega
    rw [List.cons_append, List.singleton_append, ofCodeUnits?.eq_def]
    dsimp only
    rw [if_neg (by simp; omega), if_pos (by simp; omega), if_pos (by simp; omega), e,
      Char.ofNat_toNat]

/-- **A text is told by its code units.** -/
theorem ofCodeUnits?_flatMap (s : Text) : ofCodeUnits? (s.flatMap codeUnits) = some s := by
  induction s with
  | nil => rfl
  | cons c s ih => rw [List.flatMap_cons, ofCodeUnits?_char, ih, Option.map_some]

/-! ## escapes -/

/-- the characters that end a line of a script -/
def isLineEnd (c : Char) : Bool := c = '\n' || c = '\r' || c = '\u2028' || c = '\u2029'

def hexValue? (ds : Text) : Option Nat :=
  ds.foldlM (fun n c => (Json.hexDigit? c).map (n * 16 + ·)) 0

/-- the value of the first `k` characters, all of them hexadecimal digits -/
def fixedCode? (k : Nat) (s : Text) : Option Nat :=
  if k ≤ s.length then hexValue? (s.take k) else none

/-- the code point that the digits up to a closing brace give, and the number of the digits -/
def bracedCode? (s : Text) : Option (Nat × Nat) :=
  let ds := s.takeWhile (· ≠ '\x7d')
  if ds.isEmpty || ds.length = s.length then none
  else (hexValue? ds).bind fun n => if n ≤ 0x10ffff then some (n, ds.length) else none

/-- the character that a one-letter escape stands for; any other letter stands for itself -/
def escapedLetter (c : Char) : Char :=
  match c with
  | 'b' => '\x08'
  | 't' => '\t'
  | 'n' => '\n'
  | 'v' => '\x0b'
  | 'f' => '\x0c'
  | 'r' => '\r'
  | c => c

/-- the code units of the escape after a backslash, and the number of its characters; the end of a
line gives no unit, and no digit is an escape but a zero that no digit follows -/
def escape? : Text → Option (List Nat × Nat)
  | [] => none
  | 'u' :: '\x7b' :: r => (bracedCode? r).map fun n => (unitsOfCode n.1, n.2 + 3)
  | 'u' :: r => (fixedCode? 4 r).map fun n => ([n], 5)
  | 'x' :: r => (fixedCode? 2 r).map fun n => ([n], 3)
  | '0' :: r => if r.head?.any Char.isDigit then none else some ([0], 1)
  | '\r' :: '\n' :: _ => some ([], 2)
  | c :: _ =>
    if c.isDigit then none
    else if isLineEnd c then some ([], 1)
    else some (codeUnits (escapedLetter c), 1)

/-! ## strings -/

/-- the code units of a string after its opening quote, and the text after its closing quote -/
def readString? : Text → Option (List Nat × Text)
  | [] => none
  | c :: r =>
    if c = '"' then some ([], r)
    else if c = '\\' then
      (escape? r).bind fun e => (readString? (r.drop e.2)).map fun p => (e.1 ++ p.1, p.2)
    else if c = '\n' || c = '\r' then none
    else (readString? r).map fun p => (codeUnits c ++ p.1, p.2)
termination_by s => s.length
decreasing_by
  · rw [List.length_cons, List.length_drop]
    omega
  · exact Nat.lt_succ_self _

def readLiteral? : Text → Option (Text × Text)
  | '"' :: r => (readString? r).bind fun p => (ofCodeUnits? p.1).map fun s => (s, p.2)
  | _ => none

theorem length_of_readString? {s rest : Text} {us : List Nat}
    (h : readString? s = some (us, rest)) : rest.length < s.length := by
  induction s using readString?.induct generalizing us rest with
  | case1 => rw [readString?] at h; cases h
  | case2 r =>
    rw [readString?, if_pos rfl] at h
    rw [← (Prod.mk.inj (Option.some.inj h)).2]
    exact Nat.lt_succ_self _
  | case3 r hq ih =>
    rw [readString?, if_neg (by decide), if_pos rfl] at h
    obtain ⟨e, -, h⟩ := Option.bind_eq_some_iff.1 h
    obtain ⟨p, hp, h⟩ := Option.map_eq_some_iff.1 h
    have hlt := ih e hp
    rw [← (Prod.mk.inj h).2]
    rw [List.length_drop] at hlt
    rw [List.length_cons]
    omega
  | case4 c r hq hb hn =>
    rw [readString?, if_neg hq, if_neg hb, if_pos hn] at h
    cases h
  | case5 c r hq hb hn ih =>
    rw [readString?, if_neg hq, if_neg hb, if_neg hn] at h
    obtain ⟨p, hp, h⟩ := Option.map_eq_some_iff.1 h
    rw [← (Prod.mk.inj h).2]
    exact Nat.lt_succ_of_lt (ih hp)

theorem length_of_readLiteral? {s t rest : Text} (h : readLiteral? s = some (t, rest)) :
    rest.length < s.length := by
  unfold readLiteral? at h
  split at h
  · obtain ⟨p, hp, h⟩ := Option.bind_eq_some_iff.1 h
    obtain ⟨u, -, h⟩ := Option.map_eq_some_iff.1 h
    rw [← (Prod.mk.inj h).2]
    exact Nat.lt_succ_of_lt (length_of_readString? hp)
  · cases h

/-- the text is read as one part of a string, which stands for the character -/
def SpellsChar (s : Text) (c : Char) : Prop :=
  ∀ r, readString? (s ++ r) = (readString? r).map fun p => (codeUnits c ++ p.1, p.2)

/-- **A literal is read up to its own closing quote, whatever follows.** -/
theorem readLiteral?_quote {escape : Char → Text} (he : ∀ c, SpellsChar (escape c) c)
    (s rest : Text) : readLiteral? (Json.quote escape s ++ rest) = some (s, rest) := by
  have hread : ∀ s : Text, readString? (s.flatMap escape ++ '"' :: rest) =
      some (s.flatMap codeUnits, rest) := by
    intro s
    induction s with
    | nil => rw [List.flatMap_nil, List.nil_append, readString?, if_pos rfl, List.flatMap_nil]
    | cons c s ih =>
      rw [List.flatMap_cons, List.append_assoc, he, ih, Option.map_some, List.flatMap_cons]
  have e : Json.quote escape s ++ rest = '"' :: (s.flatMap escape ++ '"' :: rest) := by
    unfold Json.quote
    simp
  rw [e, readLiteral?, hread, Option.bind_some, ofCodeUnits?_flatMap, Option.map_some]

/-! ## what is written is read -/

theorem spellsChar_plain {c : Char} (h1 : c ≠ '"') (h2 : c ≠ '\\') (h3 : ¬ c < ' ') :
    SpellsChar [c] c := by
  intro r
  have hn : c ≠ '\n' := fun e => h3 (by rw [e]; decide)
  have hr : c ≠ '\r' := fun e => h3 (by rw [e]; decide)
  rw [List.singleton_append, readString?, if_neg h1, if_neg h2, if_neg (by simp [hn, hr])]

theorem spellsChar_escape {s : Text} {c : Char}
    (h : ∀ r, escape? (s ++ r) = some (codeUnits c, s.length)) : SpellsChar ('\\' :: s) c := by
  intro r
  rw [List.cons_append, readString?, if_neg (by decide), if_pos rfl, h, Option.bind_some,
    List.drop_left]

theorem hexValue?_hex4 {n : Nat} (h : n < 65536) : hexValue? (Json.hex4 n) = some n := by
  have h1 := Json.hexDigit?_digitChar (show n / 4096 % 16 < 16 by omega)
  have h2 := Json.hexDigit?_digitChar (show n / 256 % 16 < 16 by omega)
  have h3 := Json.hexDigit?_digitChar (show n / 16 % 16 < 16 by omega)
  have h4 := Json.hexDigit?_digitChar (show n % 16 < 16 by omega)
  have e : (((0 * 16 + n / 4096 % 16) * 16 + n / 256 % 16) * 16 + n / 16 % 16) * 16 + n % 16 = n := by
    omega
  unfold hexValue? Json.hex4
  simp only [List.foldlM_cons, List.foldlM_nil, h1, h2, h3, h4, Option.map_some,
    Option.bind_eq_bind, Option.bind_some, e]
  rfl

theorem spellsChar_code {c : Char} (h : c.toNat < 65536) : SpellsChar (Json.escapeCode c) c := by
  refine spellsChar_escape fun r => ?_
  have hunits : codeUnits c = [c.toNat] := if_pos h
  have hcode : fixedCode? 4 (Json.hex4 c.toNat ++ r) = some c.toNat :=
    (if_pos (Nat.le_add_left 4 r.length)).trans (hexValue?_hex4 h)
  rw [List.cons_append, escape?, hcode, hunits]
  · rfl
  · intro r' e
    have hall : ∀ d < 16, Nat.digitChar d ≠ '\x7b' := by decide
    exact hall _ (Nat.mod_lt _ (by decide)) (List.cons.inj e).1

theorem spellsChar_letter {l c : Char} (h : (l, c) ∈ Json.letterEscapes) :
    SpellsChar ['\\', l] c := by
  refine spellsChar_escape fun r => ?_
  simp only [Json.letterEscapes, List.mem_cons, Prod.mk.injEq, List.not_mem_nil, or_false] at h
  rcases h with ⟨rfl, rfl⟩ | ⟨rfl, rfl⟩ | ⟨rfl, rfl⟩ | ⟨rfl, rfl⟩ | ⟨rfl, rfl⟩ | ⟨rfl, rfl⟩ |
    ⟨rfl, rfl⟩ <;> rfl

/-- a separator is written by its code, any other character as in plain JSON -/
theorem escapeChar_cases (c : Char) :
    ((c = '\u2028' ∨ c = '\u2029') ∧ escapeChar c = Json.escapeCode c) ∨
      (c ≠ '\u2028' ∧ c ≠ '\u2029' ∧ escapeChar c = Json.escapeChar c) := by
  unfold escapeChar
  by_cases h1 : c = '\u2028'
  · exact .inl ⟨.inl h1, if_pos (by simp [h1])⟩
  · by_cases h2 : c = '\u2029'
    · exact .inl ⟨.inr h2, if_pos (by simp [h2])⟩
    · exact .inr ⟨h1, h2, if_neg (by simp [h1, h2])⟩

theorem spellsChar_escapeChar (c : Char) : SpellsChar (escapeChar c) c := by
  rcases escapeChar_cases c with ⟨hc, e⟩ | ⟨-, -, e⟩
  · rw [e]
    rcases hc with rfl | rfl
    · exact spellsChar_code (by decide)
    · exact spellsChar_code (by decide)
  · rw [e]
    rcases Json.escapeChar_cases c with ⟨l, hl, e⟩ | ⟨h, e⟩ | ⟨h1, h2, h3, e⟩
    · rw [e]
      exact spellsChar_letter hl
    · have hc := Json.toNat_lt_of_lt h
      have hs : (' ' : Char).toNat = 32 := rfl
      rw [e]
      exact spellsChar_code (by omega)
    · rw [e]
      exact spellsChar_plain h1 h2 h3

/-! ## what is written is safe -/

/-- the characters that keep a script on its line: no control character and no line separator -/
def isInline (c : Char) : Bool := ' ' ≤ c && c ≠ '\u2028' && c ≠ '\u2029'

/-- rows of characters and whole escapes: no quote stands without a backslash, and no backslash
without a character behind it -/
inductive Sealed : Text → Prop
  | nil : Sealed []
  | char {c : Char} {r : Text} (hq : c ≠ '"') (hb : c ≠ '\\') (hr : Sealed r) : Sealed (c :: r)
  | escape (c : Char) {r : Text} (hr : Sealed r) : Sealed ('\\' :: c :: r)

theorem Sealed.append {s t : Text} (hs : Sealed s) (ht : Sealed t) : Sealed (s ++ t) := by
  induction hs with
  | nil => exact ht
  | char hq hb _ ih => exact .char hq hb ih
  | escape c _ ih => exact .escape c ih

theorem sealed_of_forall {s : Text} (h : ∀ c ∈ s, c ≠ '"' ∧ c ≠ '\\') : Sealed s := by
  induction s with
  | nil => exact .nil
  | cons c s ih =>
    obtain ⟨hc, hs⟩ := List.forall_mem_cons.1 h
    exact .char hc.1 hc.2 (ih hs)

theorem sealed_flatMap {escape : Char → Text} (h : ∀ c, Sealed (escape c)) (s : Text) :
    Sealed (s.flatMap escape) := by
  induction s with
  | nil => exact .nil
  | cons c s ih => exact (h c).append ih

/-- the text keeps a script on its line, and is sealed -/
structure Safe (s : Text) : Prop where
  inline : ∀ c ∈ s, isInline c = true
  isSealed : Sealed s

theorem safe_code (c : Char) : Safe (Json.escapeCode c) where
  inline := by
    have hall : ∀ d < 16, isInline (Nat.digitChar d) = true := by decide
    intro d hd
    rcases List.mem_cons.1 hd with rfl | hd
    · decide
    · rcases List.mem_cons.1 hd with rfl | hd
      · decide
      · obtain ⟨k, hk, rfl⟩ := Json.exists_of_mem_hex4 hd
        exact hall k hk
  isSealed := by
    have hall : ∀ d < 16, Nat.digitChar d ≠ '"' ∧ Nat.digitChar d ≠ '\\' := by decide
    refine .escape 'u' (sealed_of_forall fun d hd => ?_)
    obtain ⟨k, hk, rfl⟩ := Json.exists_of_mem_hex4 hd
    exact hall k hk

theorem safe_escapeChar (c : Char) : Safe (escapeChar c) := by
  rcases escapeChar_cases c with ⟨-, e⟩ | ⟨h1, h2, e⟩
  · rw [e]
    exact safe_code c
  · rw [e]
    rcases Json.escapeChar_cases c with ⟨l, hl, e⟩ | ⟨-, e⟩ | ⟨hq, hb, hc, e⟩
    · have hall : ∀ p ∈ Json.letterEscapes, ['\\', p.1].all isInline = true := by decide
      rw [e]
      exact ⟨List.all_eq_true.1 (hall (l, c) hl), .escape l .nil⟩
    · rw [e]
      exact safe_code c
    · rw [e]
      refine ⟨fun d hd => ?_, .char hq hb .nil⟩
      rw [List.mem_singleton.1 hd]
      simp [isInline, h1, h2, Char.not_lt.1 hc]

theorem inline_quote {s : Text} : ∀ c ∈ Json.quote escapeChar s, isInline c = true := by
  intro c hc
  unfold Json.quote at hc
  rcases List.mem_append.1 hc with hc | hc
  · rcases List.mem_cons.1 hc with rfl | hc
    · decide
    · obtain ⟨d, -, hd⟩ := List.mem_flatMap.1 hc
      exact (safe_escapeChar d).inline c hd
  · rw [List.mem_singleton.1 hc]
    decide

/-! ## separators -/

def replaceChar (c : Char) (w s : Text) : Text := s.flatMap fun d => if d = c then w else [d]

/-- a text with its two line separators written as escapes, one after the other -/
def escapeSeparators (s : Text) : Text :=
  replaceChar '\u2029' "\\u2029".toList (replaceChar '\u2028' "\\u2028".toList s)

theorem replaceChar_append (c : Char) (w s t : Text) :
    replaceChar c w (s ++ t) = replaceChar c w s ++ replaceChar c w t := List.flatMap_append

theorem replaceChar_of_not_mem {c : Char} {s : Text} (w : Text) (h : c ∉ s) :
    replaceChar c w s = s := by
  induction s with
  | nil => rfl
  | cons d s ih =>
    obtain ⟨hd, hs⟩ := not_or.1 (mt List.mem_cons.2 h)
    show (if d = c then w else [d]) ++ replaceChar c w s = d :: s
    rw [if_neg fun e => hd e.symm, ih hs]
    rfl

theorem escapeSeparators_append (s t : Text) :
    escapeSeparators (s ++ t) = escapeSeparators s ++ escapeSeparators t := by
  unfold escapeSeparators
  rw [replaceChar_append, replaceChar_append]

theorem escapeSeparators_eq_self {s : Text} (h : ∀ c ∈ s, isInline c = true) :
    escapeSeparators s = s := by
  have h1 : '\u2028' ∉ s := fun hm => absurd (h _ hm) (by decide)
  have h2 : '\u2029' ∉ s := fun hm => absurd (h _ hm) (by decide)
  unfold escapeSeparators
  rw [replaceChar_of_not_mem _ h1, replaceChar_of_not_mem _ h2]

theorem escapeSeparators_escapeChar (c : Char) :
    escapeSeparators (Json.escapeChar c) = escapeChar c := by
  rcases escapeChar_cases c with ⟨rfl | rfl, e⟩ | ⟨-, -, e⟩
  · decide
  · decide
  · rw [← e]
    exact escapeSeparators_eq_self (safe_escapeChar c).inline

/-- the separators may be escaped after a string is written as plain JSON -/
theorem escapeSeparators_quote (s : Text) :
    escapeSeparators (Json.quote Json.escapeChar s) = Json.quote escapeChar s := by
  have h : ∀ s : Text, escapeSeparators (s.flatMap Json.escapeChar) = s.flatMap escapeChar := by
    intro s
    induction s with
    | nil => rfl
    | cons c s ih =>
      rw [List.flatMap_cons, List.flatMap_cons, escapeSeparators_append, ih,
        escapeSeparators_escapeChar]
  have hquote : escapeSeparators ['"'] = ['"'] := by decide
  unfold Json.quote
  rw [← List.singleton_append, escapeSeparators_append, escapeSeparators_append, h, hquote]
  rfl

/-! ## literals -/

/-- **The literal of a string is safe in a script and denotes the string.** -/
theorem stringLiteral_faithful (s : Text) :
    (∃ inner, stringLiteral s = '"' :: inner ++ ['"'] ∧ Sealed inner) ∧
      (∀ c ∈ stringLiteral s, isInline c = true) ∧
      stringLiteral s = escapeSeparators (Json.quote Json.escapeChar s) ∧
      ∀ rest, readLiteral? (stringLiteral s ++ rest) = some (s, rest) := by
  have hsealed : Sealed (s.flatMap escapeChar) :=
    sealed_flatMap (fun c => (safe_escapeChar c).isSealed) s
  exact ⟨⟨s.flatMap escapeChar, rfl, hsealed⟩, inline_quote, (escapeSeparators_quote s).symm,
    readLiteral?_quote spellsChar_escapeChar s⟩

/-- a script may spell a string in other ways, and the text behind it is left -/
example : readLiteral? "\"\\x41\\u\x7b1f600\x7d\\\n\\ud83d\\ude00'\\q\"; x".toList =
    some ("A😀😀'q".toList, "; x".toList) := by decide +kernel

end MarkdownModule.Script

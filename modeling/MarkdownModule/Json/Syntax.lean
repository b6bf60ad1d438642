import MarkdownModule.Json.Value

/-!
# The form of a JSON text

`Json.Form` is a JSON text read for its form alone: numbers are kept as their characters, strings as
the units that are written in them, objects as the list of all their members.  `Json.parseForm?`
reads a whole text.  Giving the form a meaning is a second step (`Json.Value.ofForm?`), so that a
part that nobody needs only has to be well formed.
-/

namespace MarkdownModule.Json

/-- one unit of a string: a character, or a 16-bit code written as an escape -/
inductive StringUnit where
  | char (c : Char)
  | code (n : Nat)
deriving DecidableEq

/-- a JSON text read for its form -/
inductive Form where
  | null
  | bool (b : Bool)
  | number (lexeme : Text)
  | string (units : List StringUnit)
  | array (items : List Form)
  | object (members : List (List StringUnit × Form))

/-! ## blanks -/

def isGap (c : Char) : Bool := c = ' ' || c = '\n' || c = '\t' || c = '\r'

def skipGap (s : Text) : Text := s.dropWhile isGap

/-! ## strings -/

def hexDigit? (c : Char) : Option Nat :=
  if c.isDigit then some (c.toNat - '0'.toNat)
  else if 'a' ≤ c && c ≤ 'f' then some (c.toNat - 'a'.toNat + 10)
  else if 'A' ≤ c && c ≤ 'F' then some (c.toNat - 'A'.toNat + 10)
  else none

/-- the character that a one-letter escape stands for -/
def escapedChar? (c : Char) : Option Char :=
  match c with
  | '"' => some '"'
  | '\\' => some '\\'
  | '/' => some '/'
  | 'b' => some '\x08'
  | 'f' => some '\x0c'
  | 'n' => some '\n'
  | 'r' => some '\r'
  | 't' => some '\t'
  | _ => none

/-- the units of a string after its opening quote, and the text after its closing quote -/
def readUnits : Text → Option (List StringUnit × Text)
  | [] => none
  | '"' :: r => some ([], r)
  | '\\' :: 'u' :: a :: b :: c :: d :: r => do
    let n := (← hexDigit? a) * 4096 + (← hexDigit? b) * 256 + (← hexDigit? c) * 16 + (← hexDigit? d)
    let (us, rest) ← readUnits r
    some (.code n :: us, rest)
  | '\\' :: c :: r => do
    let e ← escapedChar? c
    let (us, rest) ← readUnits r
    some (.char e :: us, rest)
  | c :: r =>
    if c < ' ' || c = '\\' then none
    else do
      let (us, rest) ← readUnits r
      some (.char c :: us, rest)

/-! ## numbers -/

def spanDigits (s : Text) : Text × Text := (s.takeWhile Char.isDigit, s.dropWhile Char.isDigit)

/-- a fraction at the start of a text, if there is one; nothing when its digits are missing -/
def readFraction : Text → Option (Text × Text)
  | '.' :: r =>
    let (ds, rest) := spanDigits r
    if ds.isEmpty then none else some ('.' :: ds, rest)
  | s => some ([], s)

/-- an exponent part at the start of a text, if there is one; nothing when its digits are missing -/
def readExponent : Text → Option (Text × Text)
  | e :: r =>
    if e = 'e' || e = 'E' then
      let (sign, r') := match r with
        | '+' :: t => (['+'], t)
        | '-' :: t => (['-'], t)
        | t => ([], t)
      let (ds, rest) := spanDigits r'
      if ds.isEmpty then none else some (e :: sign ++ ds, rest)
    else some ([], e :: r)
  | [] => some ([], [])

/-- the digits before the point: a zero stands alone -/
def readInteger (s : Text) : Option (Text × Text) :=
  let (ds, rest) := spanDigits s
  match ds with
  | [] => none
  | ['0'] => some (ds, rest)
  | '0' :: _ => none
  | _ => some (ds, rest)

/-- a number without its sign -/
def readMagnitude (s : Text) : Option (Text × Text) := do
  let (i, r) ← readInteger s
  let (f, r) ← readFraction r
  let (e, r) ← readExponent r
  some (i ++ f ++ e, r)

def readNumber : Text → Option (Text × Text)
  | '-' :: r => (readMagnitude r).map fun t => ('-' :: t.1, t.2)
  | s => readMagnitude s

/-! ## values -/

/-- the text after a word that must stand at the start -/
def expect (word s : Text) : Option Text :=
  if word.isPrefixOf s then some (s.drop word.length) else none

mutual

def readValue : Nat → Text → Option (Form × Text)
  | 0, _ => none
  | fuel + 1, s =>
    match skipGap s with
    | [] => none
    | c :: r =>
      if c = 'n' then (expect "ull".toList r).map fun t => (.null, t)
      else if c = 't' then (expect "rue".toList r).map fun t => (.bool true, t)
      else if c = 'f' then (expect "alse".toList r).map fun t => (.bool false, t)
      else if c = '"' then (readUnits r).map fun t => (.string t.1, t.2)
      else if c = '[' then
        match skipGap r with
        | ']' :: rest => some (.array [], rest)
        | _ => (readItems fuel r).map fun t => (.array t.1, t.2)
      else if c = '\x7b' then
        match skipGap r with
        | '\x7d' :: rest => some (.object [], rest)
        | _ => (readMembers fuel r).map fun t => (.object t.1, t.2)
      else if c = '-' || c.isDigit then (readNumber (c :: r)).map fun t => (.number t.1, t.2)
      else none

/-- the items of an array that has some, and the text after its closing bracket -/
def readItems : Nat → Text → Option (List Form × Text)
  | 0, _ => none
  | fuel + 1, s => do
    let (v, r) ← readValue fuel s
    match skipGap r with
    | ',' :: r =>
      let (vs, rest) ← readItems fuel r
      some (v :: vs, rest)
    | ']' :: rest => some ([v], rest)
    | _ => none

/-- the members of an object that has some, and the text after its closing brace -/
def readMembers : Nat → Text → Option (List (List StringUnit × Form) × Text)
  | 0, _ => none
  | fuel + 1, s => do
    let (k, r) ← match skipGap s with
      | '"' :: r => readUnits r
      | _ => none
    let r ← match skipGap r with
      | ':' :: r => some r
      | _ => none
    let (v, r) ← readValue fuel r
    match skipGap r with
    | ',' :: r =>
      let (ms, rest) ← readMembers fuel r
      some ((k, v) :: ms, rest)
    | '\x7d' :: rest => some ([(k, v)], rest)
    | _ => none

end

/-- the form of a whole text, which may have gaps around it -/
def parseForm? (s : Text) : Option Form := do
  let (v, r) ← readValue (2 * s.length + 1) s
  if (skipGap r).isEmpty then some v else none

/-! ## the text of a string -/

/-- the characters of a string; nothing when half of a surrogate pair stands alone -/
def unitsText? : List StringUnit → Option Text
  | [] => some []
  | .char c :: us => (unitsText? us).map (c :: ·)
  | .code n :: us =>
    if 0xdc00 ≤ n && n < 0xe000 then none
    else if 0xd800 ≤ n && n < 0xdc00 then
      match us with
      | .code m :: us =>
        if 0xdc00 ≤ m && m < 0xe000 then
          (unitsText? us).map
            (Char.ofNat (0x10000 + (n - 0xd800) * 0x400 + (m - 0xdc00)) :: ·)
        else none
      | _ => none
    else (unitsText? us).map (Char.ofNat n :: ·)

end MarkdownModule.Json

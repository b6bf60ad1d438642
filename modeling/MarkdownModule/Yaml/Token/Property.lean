import MarkdownModule.Json.Syntax
import MarkdownModule.Yaml.Cursor
import MarkdownModule.Yaml.Token

/-!
# Anchors, tags and directives

Readers of the tokens that say something about a node or a document.
-/

namespace MarkdownModule.Yaml

/-! ## anchors -/

def endsAnchor : Text → Bool
  | [] => true
  | c :: _ =>
    isGap c || isBreak c || c = '?' || c = ':' || c = ',' || c = ']' || c = '\x7d' || c = '%'
      || c = '@' || c = '\x60'

def readAnchorName (c : Cursor) : Except Error (Text × Cursor) :=
  let name := c.rest.takeWhile isNameChar
  let c := c.skip name.length
  if name.isEmpty || !endsAnchor c.rest then .error .malformedAnchor else .ok (name, c)

/-! ## tags -/

/-- the characters of a tag that need no escape -/
def isUriChar (full : Bool) (c : Char) : Bool :=
  isNameChar c || ";/?:@&=+$.!~*\x27()".toList.contains c
    || (full && (c = ',' || c = '[' || c = ']'))

def escapedByte? : Text → Option Nat
  | '%' :: a :: b :: _ => do some ((← Json.hexDigit? a) * 16 + (← Json.hexDigit? b))
  | _ => none

/-- the length of the form of a character whose first byte is `n`, and the bits that it holds -/
def leadingByte? (n : Nat) : Option (Nat × Nat) :=
  if n < 0x80 then some (1, n)
  else if 0xc0 ≤ n && n < 0xe0 then some (2, n % 0x20)
  else if 0xe0 ≤ n && n < 0xf0 then some (3, n % 0x10)
  else if 0xf0 ≤ n && n < 0xf8 then some (4, n % 0x08)
  else none

/-- the escaped bytes that follow the first one of a character -/
def readTail? (bits : Nat) : Nat → Text → Option Nat
  | 0, _ => some bits
  | k + 1, s => do
    let n ← escapedByte? s
    if 0x80 ≤ n && n < 0xc0 then readTail? (bits * 64 + n % 64) k (s.drop 3) else none

/-- an escaped character, and the number of characters that write it -/
def readEscapedChar? (s : Text) : Option (Char × Nat) := do
  let (k, bits) ← leadingByte? (← escapedByte? s)
  let v ← readTail? bits (k - 1) (s.drop 3)
  if (0xd800 ≤ v && v < 0xe000) || 0x110000 ≤ v then none else some (Char.ofNat v, 3 * k)

/-- the characters of a tag, its escapes replaced -/
def readUri (full : Bool) : Nat → Cursor → Except Error (Text × Cursor)
  | 0, c => .ok ([], c)
  | fuel + 1, c =>
    match c.rest with
    | [] => .ok ([], c)
    | d :: _ =>
      if d = '%' then
        match readEscapedChar? c.rest with
        | none => .error .malformedTag
        | some (e, n) => (readUri full fuel (c.skip n)).map fun t => (e :: t.1, t.2)
      else if isUriChar full d then
        (readUri full fuel (c.skip 1)).map fun t => (d :: t.1, t.2)
      else .ok ([], c)

/-- the characters of a tag, of which there must be some -/
def readUri1 (full : Bool) (c : Cursor) : Except Error (Text × Cursor) := do
  let (t, c) ← readUri full (c.rest.length + 1) c
  if t.isEmpty then .error .malformedTag else .ok (t, c)

/-- a handle: an exclamation mark, a name, and another mark if there is one -/
def readHandle (c : Cursor) : Text × Cursor :=
  let name := (c.rest.drop 1).takeWhile isNameChar
  let c := c.skip (name.length + 1)
  if c.startsWith '!' then ('!' :: name ++ ['!'], c.skip 1) else ('!' :: name, c)

/-- whether a handle is closed by a second mark -/
def isClosedHandle (h : Text) : Bool := 2 ≤ h.length && h.getLast? = some '!'

def readTag (c : Cursor) : Except Error (Token × Cursor) := do
  let (token, c) ←
    if (c.skip 1).startsWith '<' then do
      let (t, c) ← readUri1 true (c.skip 2)
      if c.startsWith '>' then .ok (Token.tag [] t, c.skip 1) else .error .malformedTag
    else
      let (h, c) := readHandle c
      if isClosedHandle h then do
        let (t, c) ← readUri1 false c
        .ok (Token.tag h t, c)
      else do
        let (t, c) ← readUri false (c.rest.length + 1) c
        let suffix := h.drop 1 ++ t
        .ok (if suffix.isEmpty then Token.tag [] ['!'] else Token.tag ['!'] suffix, c)
  .ok (token, c)

/-! ## directives -/

/-- the number of a version, of at most nine digits -/
def readVersionNumber (c : Cursor) : Except Error (Nat × Cursor) :=
  let ds := c.rest.takeWhile Char.isDigit
  if ds.isEmpty || 9 < ds.length then .error .malformedDirective
  else .ok (ds.foldl (fun n d => n * 10 + (d.toNat - '0'.toNat)) 0, c.skip ds.length)

def readVersion (c : Cursor) : Except Error (Token × Cursor) := do
  let (major, c) ← readVersionNumber (c.skipWhile isGap)
  if c.startsWith '.' then do
    let (minor, c) ← readVersionNumber (c.skip 1)
    .ok (.versionDirective major minor, c)
  else .error .malformedDirective

/-- the meaning of a handle after the name of its directive -/
def readTagDirective (c : Cursor) : Except Error (Token × Cursor) := do
  let c := c.skipWhile isGap
  if !c.startsWith '!' then .error .malformedDirective
  else
    let (h, c) := readHandle c
    if (h ≠ ['!'] && !isClosedHandle h) || !c.head?.any isGap then .error .malformedDirective
    else
      let (t, c) ← readUri1 true (c.skipWhile isGap)
      if atGap c.rest then .ok (.tagDirective h t, c) else .error .malformedDirective

/-- a directive at whose percent sign the cursor stands, and the cursor on the line after it -/
def readDirective (c : Cursor) : Except Error (Token × Cursor) := do
  let c := c.skip 1
  let name := c.rest.takeWhile isNameChar
  let c := c.skip name.length
  if !atGap c.rest then .error .malformedDirective
  else
    let (token, c) ←
      if name = "YAML".toList then readVersion c
      else if name = "TAG".toList then readTagDirective c
      else .error .malformedDirective
    let c := c.skipComment
    if atLineEnd c.rest then .ok (token, c.skipBreak) else .error .malformedDirective

end MarkdownModule.Yaml

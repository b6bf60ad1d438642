import MarkdownModule.Yaml.BlockScalar
import MarkdownModule.Yaml.QuotedScalar
import MarkdownModule.Yaml.Token.Property

/-!
# The tokens of a text

`Yaml.tokens` cuts a text into tokens.  A key is seen only at the colon after it, so a place where a
key may have begun is kept in mind, and the tokens for the key are put in there afterwards.

* `Yaml.Reader.next`  the reader after one more token
* `Yaml.tokens`       the tokens of a whole text
-/

namespace MarkdownModule.Yaml

/-- a place where a key may have begun -/
structure KeyPlace where
  /-- whether a key must begin there -/
  required : Bool
  /-- the number of tokens before it -/
  tokenCount : Nat
  index : Nat
  line : Nat
  column : Nat

structure Reader where
  cursor : Cursor
  tokens : List Token := []
  /-- the column of the innermost block, or -1 outside of all blocks -/
  indentation : Int := -1
  /-- the columns of the blocks around it -/
  outer : List Int := []
  /-- whether a key may begin here -/
  keyAllowed : Bool := true
  flowDepth : Nat := 0
  /-- where a key may have begun, inside of the innermost brackets first -/
  keys : List (Option KeyPlace) := [none]

namespace Reader

def inFlow (r : Reader) : Bool := 0 < r.flowDepth

def push (r : Reader) (t : Token) : Reader := { r with tokens := r.tokens ++ [t] }

/-- the reader with a token put in before the last ones -/
def putIn (r : Reader) (n : Nat) (t : Token) : Reader :=
  { r with tokens := r.tokens.take n ++ t :: r.tokens.drop n }

/-- the reader after `n` characters and one more token -/
def pushOver (r : Reader) (n : Nat) (t : Token) : Reader :=
  { r.push t with cursor := r.cursor.skip n }

/-! ## keys -/

/-- the place of a key inside of the innermost brackets -/
def keyPlace (r : Reader) : Option KeyPlace := r.keys.head?.getD none

def setKeyPlace (r : Reader) (k : Option KeyPlace) : Reader := { r with keys := k :: r.keys.drop 1 }

/-- the reader after it is clear that no key began -/
def dropKey (r : Reader) : Except Error Reader :=
  match r.keyPlace with
  | some k => if k.required then .error .missingColon else .ok (r.setKeyPlace none)
  | none => .ok r

/-- the reader that keeps in mind that a key may begin here -/
def saveKey (r : Reader) : Except Error Reader :=
  if r.keyAllowed then do
    let r ← r.dropKey
    .ok (r.setKeyPlace (some
      ⟨!r.inFlow && r.indentation == r.cursor.column, r.tokens.length, r.cursor.index,
        r.cursor.line, r.cursor.column⟩))
  else .ok r

/-- whether a key that began there would go over the line or over 1024 characters -/
def isStale (c : Cursor) (k : KeyPlace) : Bool := k.line < c.line || k.index + 1024 < c.index

/-- the places of keys without those that are stale -/
def dropStale (c : Cursor) : List (Option KeyPlace) → Except Error (List (Option KeyPlace))
  | [] => .ok []
  | none :: ks => (dropStale c ks).map (none :: ·)
  | some k :: ks =>
    if isStale c k then
      if k.required then .error .missingColon else (dropStale c ks).map (none :: ·)
    else (dropStale c ks).map (some k :: ·)

/-! ## blocks -/

/-- the reader in a block that begins at a column; its token is put in at a place in the tokens -/
def openBlock (r : Reader) (column place : Nat) (t : Token) : Reader :=
  if !r.inFlow && r.indentation < column then
    { r.putIn place t with indentation := column, outer := r.indentation :: r.outer }
  else r

/-- the columns around a place, and the number of blocks that end before it -/
def closeBlocks (column : Int) (indentation : Int) : List Int → Int × List Int × Nat
  | [] => (indentation, [], 0)
  | o :: os =>
    if column < indentation then
      let (i, rest, n) := closeBlocks column o os
      (i, rest, n + 1)
    else (indentation, o :: os, 0)

/-- the reader after the blocks that end before a column -/
def closeTo (r : Reader) (column : Int) : Reader :=
  if r.inFlow then r
  else
    let (i, os, n) := closeBlocks column r.indentation r.outer
    { r with
      indentation := i
      outer := os
      tokens := r.tokens ++ List.replicate n .blockEnd }

/-! ## white space -/

/-- the reader at the next token -/
def skipGaps : Nat → Reader → Reader
  | 0, r => r
  | fuel + 1, r =>
    let c := r.cursor
    let c := if c.column = 0 && c.startsWith '\ufeff' then c.skip 1 else c
    let c := c.skipWhile fun d => d = ' ' || (d = '\t' && (r.inFlow || !r.keyAllowed))
    let c := if c.startsWith '#' then c.skipWhile (!isBreak ·) else c
    if c.head?.any isBreak then
      skipGaps fuel { r with cursor := c.skipBreak, keyAllowed := r.keyAllowed || !r.inFlow }
    else { r with cursor := c }

/-! ## tokens -/

/-- a directive or a mark of a document, before which all blocks end -/
def outside (r : Reader) : Except Error Reader := do
  let r ← (r.closeTo (-1)).dropKey
  .ok { r with keyAllowed := false }

def openFlow (r : Reader) (t : Token) : Except Error Reader := do
  let r ← r.saveKey
  .ok { r.pushOver 1 t with
    keys := none :: r.keys, flowDepth := r.flowDepth + 1, keyAllowed := true }

def closeFlow (r : Reader) (t : Token) : Except Error Reader := do
  let r ← r.dropKey
  .ok { r.pushOver 1 t with
    keys := if r.inFlow then r.keys.drop 1 else r.keys
    flowDepth := r.flowDepth - 1
    keyAllowed := false }

/-- a comma inside of brackets -/
def flowEntry (r : Reader) : Except Error Reader := do
  let r ← r.dropKey
  .ok { r.pushOver 1 .flowEntry with keyAllowed := true }

/-- a hyphen before an item -/
def blockEntry (r : Reader) : Except Error Reader := do
  if !r.inFlow && !r.keyAllowed then .error .misplacedToken
  else
    let r ← (r.openBlock r.cursor.column r.tokens.length .blockSequenceStart).dropKey
    .ok { r.pushOver 1 .blockEntry with keyAllowed := true }

/-- a question mark before a key -/
def keyMark (r : Reader) : Except Error Reader := do
  if !r.inFlow && !r.keyAllowed then .error .misplacedToken
  else
    let r ← (r.openBlock r.cursor.column r.tokens.length .blockMappingStart).dropKey
    .ok { r.pushOver 1 .key with keyAllowed := !r.inFlow }

/-- a colon before a value -/
def valueMark (r : Reader) : Except Error Reader :=
  match r.keyPlace with
  | some k =>
    let r := (r.putIn k.tokenCount .key).openBlock k.column k.tokenCount .blockMappingStart
    .ok { (r.setKeyPlace none).pushOver 1 .value with keyAllowed := false }
  | none =>
    if !r.inFlow && !r.keyAllowed then .error .misplacedToken
    else
      let r := r.openBlock r.cursor.column r.tokens.length .blockMappingStart
      .ok { r.pushOver 1 .value with keyAllowed := !r.inFlow }

/-- an anchor or an alias -/
def named (r : Reader) (t : Text → Token) : Except Error Reader := do
  let r ← r.saveKey
  let (name, c) ← readAnchorName (r.cursor.skip 1)
  .ok { r.push (t name) with cursor := c, keyAllowed := false }

def tag (r : Reader) : Except Error Reader := do
  let r ← r.saveKey
  let (t, c) ← readTag r.cursor
  if atGap c.rest || (r.inFlow && c.startsWith ',') then
    .ok { r.push t with cursor := c, keyAllowed := false }
  else .error .malformedTag

def blockScalar (r : Reader) (literal : Bool) : Except Error Reader := do
  let r ← r.dropKey
  let (t, c) ← readBlockScalar literal r.indentation (r.cursor.skip 1)
  .ok { r.push (.scalar t false) with cursor := c, keyAllowed := true }

def quotedScalar (r : Reader) (q : Char) : Except Error Reader := do
  let r ← r.saveKey
  let (t, c) ← readQuoted q r.cursor
  .ok { r.push (.scalar t false) with cursor := c, keyAllowed := false }

def plainScalar (r : Reader) : Except Error Reader := do
  let r ← r.saveKey
  let (t, broken, c) ← readPlain r.inFlow (r.indentation + 1).toNat r.cursor
  .ok { r.push (.scalar t true) with cursor := c, keyAllowed := broken }

/-- the characters with which no plain scalar begins -/
def isIndicator (c : Char) : Bool := "-?:,[]\x7b\x7d#&*!|>\x27\x22%@\x60".toList.contains c

def startsPlain (inFlow : Bool) (c : Char) (rest : Text) : Bool :=
  !(isGap c || isBreak c || isIndicator c)
    || (c = '-' && !rest.head?.any isGap)
    || (!inFlow && (c = '?' || c = ':') && !atGap rest)

/-- the reader after the token that begins with `c`, which is followed by `rest` -/
def token (r : Reader) (c : Char) (rest : Text) : Except Error Reader :=
  if r.cursor.column = 0 && c = '%' then do
    let r ← r.outside
    let (t, cursor) ← readDirective r.cursor
    .ok { r.push t with cursor := cursor }
  else if r.cursor.atMark '-' then (r.outside).map (·.pushOver 3 .documentStart)
  else if r.cursor.atMark '.' then (r.outside).map (·.pushOver 3 .documentEnd)
  else if c = '[' then r.openFlow .flowSequenceStart
  else if c = '\x7b' then r.openFlow .flowMappingStart
  else if c = ']' then r.closeFlow .flowSequenceEnd
  else if c = '\x7d' then r.closeFlow .flowMappingEnd
  else if c = ',' then r.flowEntry
  else if c = '-' && atGap rest then r.blockEntry
  else if c = '?' && (r.inFlow || atGap rest) then r.keyMark
  else if c = ':' && (r.inFlow || atGap rest) then r.valueMark
  else if c = '*' then r.named .alias
  else if c = '&' then r.named .anchor
  else if c = '!' then r.tag
  else if c = '|' && !r.inFlow then r.blockScalar true
  else if c = '>' && !r.inFlow then r.blockScalar false
  else if c = '\'' || c = '"' then r.quotedScalar c
  else if startsPlain r.inFlow c rest then r.plainScalar
  else .error .strayCharacter

/-- the reader after one more token, or at the end of the text all tokens -/
def next (r : Reader) : Except Error (Reader ⊕ List Token) := do
  let r := r.skipGaps (r.cursor.rest.length + 1)
  let keys ← dropStale r.cursor r.keys
  let r := { r with keys := keys }.closeTo r.cursor.column
  match r.cursor.rest with
  | [] => do
    let r ← (r.closeTo (-1)).dropKey
    .ok (.inr r.tokens)
  | c :: rest => (r.token c rest).map .inl

def all : Nat → Reader → Except Error (List Token)
  | 0, r => .ok r.tokens
  | fuel + 1, r => do
    match ← r.next with
    | .inl r => all fuel r
    | .inr ts => .ok ts

end Reader

def tokens (s : Text) : Except Error (List Token) :=
  if s.all isAllowed then Reader.all (s.length + 1) { cursor := { rest := s } }
  else .error .controlCharacter

end MarkdownModule.Yaml

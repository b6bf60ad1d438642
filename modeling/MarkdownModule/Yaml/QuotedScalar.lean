import MarkdownModule.Json.Syntax
import MarkdownModule.Yaml.Cursor

/-!
# Scalars in line with other tokens

Quoted and plain scalars may go over several lines.  A single line break in them becomes a space, and
of several breaks the first is dropped (`Yaml.Fold.text`).

* `Yaml.readQuoted`  a scalar in single or double quotes
* `Yaml.readPlain`   a scalar without quotes
-/

namespace MarkdownModule.Yaml

/-! ## folding -/

/-- white space between two parts of a scalar -/
structure Fold where
  /-- the gaps of the line, kept when the line does not end -/
  gaps : Text := []
  /-- whether the line ends -/
  broken : Bool := false
  /-- the text of the first line break -/
  first : Text := []
  /-- the texts of the further line breaks -/
  more : Text := []

/-- what the white space stands for -/
def Fold.text (f : Fold) : Text :=
  if !f.broken then f.gaps
  else if f.first.head? = some '\n' then (if f.more.isEmpty then [' '] else f.more)
  else f.first ++ f.more

/-- white space at the cursor; `narrow` tells whether a tab may not stand at a column -/
def readFold (narrow : Nat → Bool) : Nat → Fold → Cursor → Except Error (Fold × Cursor)
  | 0, f, c => .ok (f, c)
  | fuel + 1, f, c =>
    match c.head? with
    | none => .ok (f, c)
    | some d =>
      if isGap d then
        if f.broken && d = '\t' && narrow c.column then .error .tabIndentation
        else readFold narrow fuel (if f.broken then f else { f with gaps := f.gaps ++ [d] }) (c.skip 1)
      else if isBreak d then
        readFold narrow fuel
          (if f.broken then { f with more := f.more ++ c.breakText }
           else { f with broken := true, first := c.breakText })
          c.skipBreak
      else .ok (f, c)

/-! ## quoted scalars -/

def escapedChar? (c : Char) : Option Char :=
  match c with
  | '0' => some '\x00'
  | 'a' => some '\x07'
  | 'b' => some '\x08'
  | 't' | '\t' => some '\t'
  | 'n' => some '\n'
  | 'v' => some '\x0b'
  | 'f' => some '\x0c'
  | 'r' => some '\r'
  | 'e' => some '\x1b'
  | ' ' => some ' '
  | '"' => some '"'
  | '/' => some '/'
  | '\\' => some '\\'
  | 'N' => some '\x85'
  | '_' => some '\u00a0'
  | 'L' => some '\u2028'
  | 'P' => some '\u2029'
  | _ => none

/-- the number of digits of an escape by code -/
def codeLength? (c : Char) : Option Nat :=
  match c with
  | 'x' => some 2
  | 'u' => some 4
  | 'U' => some 8
  | _ => none

def hexValue? (ds : Text) : Option Nat :=
  ds.foldl (fun n d => do some ((← n) * 16 + (← Json.hexDigit? d))) (some 0)

/-- an escape after its backslash: its character, and the number of characters that write it -/
def readEscape? : Text → Option (Char × Nat)
  | [] => none
  | c :: r =>
    match codeLength? c with
    | none => (escapedChar? c).map fun d => (d, 1)
    | some n => do
      let v ← hexValue? (r.take n)
      if r.length < n || (0xd800 ≤ v && v < 0xe000) || 0x110000 ≤ v then none
      else some (Char.ofNat v, n + 1)

/-- characters up to white space, the closing quote or an escaped line break; the flag tells whether
a line break was escaped -/
def readQuotedRun (q : Char) : Nat → Cursor → Except Error (Text × Bool × Cursor)
  | 0, c => .ok ([], false, c)
  | fuel + 1, c =>
    match c.rest with
    | [] => .ok ([], false, c)
    | d :: r =>
      if isGap d || isBreak d then .ok ([], false, c)
      else if q = '\'' && d = '\'' && r.head? = some '\'' then do
        let (t, b, c) ← readQuotedRun q fuel (c.skip 2)
        .ok ('\'' :: t, b, c)
      else if d = q then .ok ([], false, c)
      else if q = '"' && d = '\\' then
        if r.head?.any isBreak then .ok ([], true, (c.skip 1).skipBreak)
        else
          match readEscape? r with
          | none => .error .unknownEscape
          | some (e, n) => do
            let (t, b, c) ← readQuotedRun q fuel (c.skip (n + 1))
            .ok (e :: t, b, c)
      else do
        let (t, b, c) ← readQuotedRun q fuel (c.skip 1)
        .ok (d :: t, b, c)

/-- the text of a quoted scalar after its opening quote, and the cursor after its closing one -/
def readQuotedText (q : Char) : Nat → Cursor → Except Error (Text × Cursor)
  | 0, _ => .error .unclosedQuote
  | fuel + 1, c => do
    if c.atDocumentMark || c.rest.isEmpty then .error .unclosedQuote
    else
      let (run, escaped, c) ← readQuotedRun q (c.rest.length + 1) c
      if c.startsWith q then .ok (run, c.skip 1)
      else
        let (f, c) ← readFold (fun _ => false) (c.rest.length + 1) { broken := escaped } c
        let (more, c) ← readQuotedText q fuel c
        .ok (run ++ f.text ++ more, c)

/-- a quoted scalar at whose opening quote the cursor stands -/
def readQuoted (q : Char) (c : Cursor) : Except Error (Text × Cursor) :=
  readQuotedText q (c.rest.length + 1) (c.skip 1)

/-! ## plain scalars -/

/-- the characters that end a plain scalar inside of brackets -/
def isFlowIndicator (c : Char) : Bool :=
  c = ',' || c = '[' || c = ']' || c = '\x7b' || c = '\x7d'

def endsPlain (inFlow : Bool) : Text → Bool
  | [] => true
  | c :: r => isGap c || isBreak c || (c = ':' && atGap r) || (inFlow && isFlowIndicator c)

/-- whether a colon inside of brackets stands before a character that may not follow it -/
def isStrayColon (inFlow : Bool) : Text → Bool
  | ':' :: d :: _ => inFlow && (isFlowIndicator d || d = '?')
  | _ => false

/-- characters up to white space or the end of the scalar -/
def readPlainRun (inFlow : Bool) : Nat → Cursor → Except Error (Text × Cursor)
  | 0, c => .ok ([], c)
  | fuel + 1, c =>
    match c.rest with
    | [] => .ok ([], c)
    | d :: _ =>
      if isStrayColon inFlow c.rest then .error .strayCharacter
      else if endsPlain inFlow c.rest then .ok ([], c)
      else do
        let (t, c) ← readPlainRun inFlow fuel (c.skip 1)
        .ok (d :: t, c)

/-- a plain scalar as far as it has been read -/
structure PlainScalar where
  text : Text := []
  /-- the white space after the text -/
  fold : Fold := {}
  cursor : Cursor

/-- reads on in a plain scalar whose further lines have at least this indentation -/
def readPlainText (inFlow : Bool) (indentation : Nat) :
    Nat → PlainScalar → Except Error PlainScalar
  | 0, s => .ok s
  | fuel + 1, s => do
    if s.cursor.atDocumentMark || s.cursor.startsWith '#' then .ok s
    else
      let (run, c) ← readPlainRun inFlow (s.cursor.rest.length + 1) s.cursor
      let s := if run.isEmpty then s
        else { text := s.text ++ s.fold.text ++ run, fold := {}, cursor := c }
      if !atGap c.rest || c.rest.isEmpty then .ok { s with cursor := c }
      else
        let (f, c) ← readFold (· < indentation) (c.rest.length + 1) s.fold c
        let s := { s with fold := f, cursor := c }
        if !inFlow && c.column < indentation then .ok s
        else readPlainText inFlow indentation fuel s

/-- a plain scalar at the cursor, whether its last line has ended, and the cursor after it -/
def readPlain (inFlow : Bool) (indentation : Nat) (c : Cursor) :
    Except Error (Text × Bool × Cursor) := do
  let s ← readPlainText inFlow indentation (c.rest.length + 1) { cursor := c }
  .ok (s.text, s.fold.broken, s.cursor)

end MarkdownModule.Yaml

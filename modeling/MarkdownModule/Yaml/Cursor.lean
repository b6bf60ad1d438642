import MarkdownModule.Yaml.Error

/-!
# Reading a YAML text

A `Yaml.Cursor` is the rest of a text with the place where it begins.  Lines end at a line feed, a
carriage return, both together, or one of three further characters.
-/

namespace MarkdownModule.Yaml

/-! ## characters -/

/-- a space or a tab -/
def isGap (c : Char) : Bool := c = ' ' || c = '\t'

def isBreak (c : Char) : Bool :=
  c = '\r' || c = '\n' || c = '\x85' || c = '\u2028' || c = '\u2029'

def isNameChar (c : Char) : Bool := c.isAlphanum || c = '_' || c = '-'

def isAllowed (c : Char) : Bool :=
  c = '\t' || c = '\n' || c = '\r' || c = '\x85' || (' ' ≤ c && c ≤ '~')
    || ('\u00a0' ≤ c && c ≤ '\ufffd') || '\uffff' < c

/-- whether the text is at its end, or begins with a space, a tab or a line break -/
def atGap : Text → Bool
  | [] => true
  | c :: _ => isGap c || isBreak c

def atLineEnd : Text → Bool
  | [] => true
  | c :: _ => isBreak c

/-! ## places -/

/-- the rest of a text, and the place where it begins -/
structure Cursor where
  rest : Text
  /-- the number of characters before the place -/
  index : Nat := 0
  line : Nat := 0
  column : Nat := 0

namespace Cursor

/-- the cursor after `n` characters of the line -/
def skip (c : Cursor) (n : Nat) : Cursor :=
  { c with rest := c.rest.drop n, index := c.index + n, column := c.column + n }

def skipWhile (c : Cursor) (p : Char → Bool) : Cursor := c.skip (c.rest.takeWhile p).length

/-- the number of characters of the line break at the start of a text -/
def breakLength : Text → Nat
  | '\r' :: '\n' :: _ => 2
  | c :: _ => if isBreak c then 1 else 0
  | [] => 0

def skipBreak (c : Cursor) : Cursor :=
  match breakLength c.rest with
  | 0 => c
  | n => { rest := c.rest.drop n, index := c.index + n, line := c.line + 1, column := 0 }

/-- the text of the line break at which the cursor stands: a line feed, except for two characters
that stand for themselves -/
def breakText (c : Cursor) : Text :=
  match c.rest with
  | [] => []
  | d :: _ =>
    if d = '\u2028' || d = '\u2029' then [d] else if isBreak d then ['\n'] else []

def head? (c : Cursor) : Option Char := c.rest.head?

def startsWith (c : Cursor) (d : Char) : Bool := c.rest.head? == some d

/-- whether a mark of three equal characters stands at the start of a line -/
def atMark (c : Cursor) (d : Char) : Bool :=
  c.column == 0 && [d, d, d].isPrefixOf c.rest && atGap (c.rest.drop 3)

def atDocumentMark (c : Cursor) : Bool := c.atMark '-' || c.atMark '.'

/-- the cursor after spaces and tabs and a comment -/
def skipComment (c : Cursor) : Cursor :=
  let c := c.skipWhile isGap
  if c.startsWith '#' then c.skipWhile (!isBreak ·) else c

end Cursor

end MarkdownModule.Yaml

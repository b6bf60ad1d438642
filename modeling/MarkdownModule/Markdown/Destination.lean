import MarkdownModule.Markdown.Escape

/-!
# Destinations and titles

The destination of a link stands between angle brackets, or is a row of characters without blanks
whose parentheses are balanced.  A title stands between quotes or parentheses.

* `readDestination?`  a destination, as it is written
* `readTitle?`        a title, as it is written
* `readResource?`     both, between parentheses
-/

namespace MarkdownModule.Markdown

/-! ## destinations -/

/-- a control character of ASCII other than U+0000 -/
def isControlChar (c : Char) : Bool := ('\x01' ≤ c && c ≤ '\x1f') || c = '\x7f'

/-- the text up to the bracket that closes a destination, and the text after it -/
def bracketedSpan? : Text → Option (Text × Text)
  | [] => none
  | '>' :: r => some ([], r)
  | '\n' :: _ => none
  | '<' :: _ => none
  | '\\' :: c :: r =>
    if c = '<' || c = '>' || c = '\\' then
      (bracketedSpan? r).map fun t => ('\\' :: c :: t.1, t.2)
    else (bracketedSpan? (c :: r)).map fun t => ('\\' :: t.1, t.2)
  | c :: r => (bracketedSpan? r).map fun t => (c :: t.1, t.2)

/-- a destination without brackets, and the text after it; `depth` parentheses are open and no more
than `most` may be -/
def plainSpan? (most : Nat) : Nat → Text → Option (Text × Text)
  | depth, [] => if depth = 0 then some ([], []) else none
  | depth, '\\' :: c :: r =>
    if c = '(' || c = ')' || c = '\\' then
      (plainSpan? most depth r).map fun t => ('\\' :: c :: t.1, t.2)
    else (plainSpan? most depth (c :: r)).map fun t => ('\\' :: t.1, t.2)
  | depth, c :: r =>
    if depth = 0 && (isWide c || c = ')') then some ([], c :: r)
    else if c = '(' then
      if depth < most then (plainSpan? most (depth + 1) r).map fun t => (c :: t.1, t.2) else none
    else if c = ')' then (plainSpan? most (depth - 1) r).map fun t => (c :: t.1, t.2)
    else if c = ' ' || isControlChar c then none
    else (plainSpan? most depth r).map fun t => (c :: t.1, t.2)

/-- a destination as it is written, and the text after it -/
def readDestination? (most : Nat) : Text → Option (Text × Text)
  | [] => none
  | '<' :: r => bracketedSpan? r
  | c :: r => if c = ' ' || c = ')' || isControlChar c then none else plainSpan? most 0 (c :: r)

/-! ## titles -/

/-- the text up to the character that closes a title, and the text after it -/
def titleSpan? (close : Char) : Text → Option (Text × Text)
  | [] => none
  | '\\' :: c :: r =>
    if c = '"' || c = '\'' || c = ')' || c = '\\' then
      (titleSpan? close r).map fun t => ('\\' :: c :: t.1, t.2)
    else (titleSpan? close (c :: r)).map fun t => ('\\' :: t.1, t.2)
  | c :: r => if c = close then some ([], r) else (titleSpan? close r).map fun t => (c :: t.1, t.2)

def readTitle? : Text → Option (Text × Text)
  | '"' :: r => titleSpan? '"' r
  | '\'' :: r => titleSpan? '\'' r
  | '(' :: r => titleSpan? ')' r
  | _ => none

def opensTitle : Text → Bool
  | c :: _ => c = '"' || c = '\'' || c = '('
  | [] => false

/-! ## both -/

/-- a destination and perhaps a title, with escapes and references replaced -/
structure Resource where
  destination : Text
  title : Option Text
deriving DecidableEq

/-- the title that is written as a text, if that is not empty -/
def titleOf (written : Text) : Option Text :=
  if written.isEmpty then none else some (decode written)

/-- the most parentheses that may be open in the destination of a resource -/
def mostOpen : Nat := 32

/-- the text after the parenthesis that closes a resource and must stand at the start -/
def closeResource? (r : Resource) (s : Text) : Option (Resource × Text) :=
  match s with
  | ')' :: rest => some (r, rest)
  | _ => none

/-- a resource after its opening parenthesis, and the text after the closing one -/
def readResource? (s : Text) : Option (Resource × Text) :=
  match s.dropWhile isWide with
  | ')' :: rest => some (⟨[], none⟩, rest)
  | s => do
    let (destination, s) ← readDestination? mostOpen s
    let after := s.dropWhile isWide
    if after.length < s.length && opensTitle after then
      let (title, s) ← readTitle? after
      closeResource? ⟨decode destination, titleOf title⟩ (s.dropWhile isWide)
    else closeResource? ⟨decode destination, none⟩ after

end MarkdownModule.Markdown

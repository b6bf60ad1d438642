import MarkdownModule.Yaml.Cursor

/-!
# Block scalars

A block scalar is written on the lines after its head, each with the same indentation.  In a literal
scalar every line break counts, and in a folded one the break between two lines of text becomes a
space.  The head says what becomes of the breaks at the end.
-/

namespace MarkdownModule.Yaml

/-- what becomes of the line breaks at the end of a block scalar -/
inductive Chomping where
  /-- none is kept -/
  | strip
  /-- one is kept -/
  | clip
  /-- all are kept -/
  | keep

structure BlockHead where
  chomping : Chomping := .clip
  /-- the indentation of the lines in addition to that around the scalar, if it is given -/
  increment : Option Nat := none

def chomping? : Option Char → Option Chomping
  | some '+' => some .keep
  | some '-' => some .strip
  | _ => none

def increment? : Option Char → Option Nat
  | some d => if d.isDigit then some (d.toNat - '0'.toNat) else none
  | none => none

/-- the head of a block scalar after its first character, and the cursor on the line after it -/
def readBlockHead (c : Cursor) : Except Error (BlockHead × Cursor) :=
  let (h, c) : BlockHead × Cursor :=
    match chomping? c.head? with
    | some k =>
      match increment? (c.skip 1).head? with
      | some n => (⟨k, some n⟩, c.skip 2)
      | none => (⟨k, none⟩, c.skip 1)
    | none =>
      match increment? c.head? with
      | some n =>
        match chomping? (c.skip 1).head? with
        | some k => (⟨k, some n⟩, c.skip 2)
        | none => (⟨.clip, some n⟩, c.skip 1)
      | none => ({}, c)
  let c := c.skipComment
  if h.increment = some 0 || !atLineEnd c.rest then .error .malformedBlockHead
  else .ok (h, c.skipBreak)

/-- blank lines and the indentation of the line after them -/
structure BlankLines where
  /-- the texts of the line breaks -/
  breaks : Text := []
  /-- the greatest column that was reached -/
  widest : Nat := 0
  cursor : Cursor

/-- the blank lines at the cursor; lines are indented by `indentation`, or by any number of spaces
when it is zero -/
def readBlankLines (indentation : Nat) : Nat → BlankLines → Except Error BlankLines
  | 0, b => .ok b
  | fuel + 1, b =>
    let spaces := (b.cursor.rest.takeWhile (· = ' ')).length
    let n := if indentation = 0 then spaces else min spaces (indentation - b.cursor.column)
    let c := b.cursor.skip n
    let b := { b with widest := max b.widest c.column, cursor := c }
    if (indentation = 0 || c.column < indentation) && c.startsWith '\t' then
      .error .tabIndentation
    else if c.head?.any isBreak then
      readBlankLines indentation fuel
        { b with breaks := b.breaks ++ c.breakText, cursor := c.skipBreak }
    else .ok b

/-- the lines of a block scalar as far as they have been read -/
structure BlockLines where
  text : Text := []
  /-- the break after the last line -/
  lastBreak : Text := []
  /-- the breaks of the blank lines after it -/
  breaks : Text
  /-- whether the last line begins with a gap -/
  gapped : Bool := false
  cursor : Cursor

/-- what stands between two lines of a scalar -/
def BlockLines.joint (b : BlockLines) (literal gapNext : Bool) : Text :=
  if !literal && b.lastBreak.head? = some '\n' && !b.gapped && !gapNext then
    if b.breaks.isEmpty then [' '] else b.breaks
  else b.lastBreak ++ b.breaks

def readBlockLines (literal : Bool) (indentation : Nat) : Nat → BlockLines → Except Error BlockLines
  | 0, b => .ok b
  | fuel + 1, b =>
    if b.cursor.column ≠ indentation || b.cursor.rest.isEmpty then .ok b
    else do
      let gap := b.cursor.head?.any isGap
      let line := b.cursor.rest.takeWhile (!isBreak ·)
      let c := b.cursor.skip line.length
      let blank ← readBlankLines indentation (c.rest.length + 1) { cursor := c.skipBreak }
      readBlockLines literal indentation fuel
        { text := b.text ++ b.joint literal gap ++ line
          lastBreak := c.breakText
          breaks := blank.breaks
          gapped := gap
          cursor := blank.cursor }

/-- a block scalar after its first character, in a block with this indentation, and the cursor after
it -/
def readBlockScalar (literal : Bool) (around : Int) (c : Cursor) : Except Error (Text × Cursor) := do
  let (h, c) ← readBlockHead c
  let given := (h.increment.map fun n => (max 0 around).toNat + n).getD 0
  let blank ← readBlankLines given (c.rest.length + 1) { cursor := c }
  let indentation := if given = 0 then max (max blank.widest (around + 1).toNat) 1 else given
  let b ← readBlockLines literal indentation (c.rest.length + 1)
    { breaks := blank.breaks, cursor := blank.cursor }
  let tail := match h.chomping with
    | .strip => []
    | .clip => b.lastBreak
    | .keep => b.lastBreak ++ b.breaks
  .ok (b.text ++ tail, b.cursor)

end MarkdownModule.Yaml

import MarkdownModule.Markdown.Escape
import MarkdownModule.Markdown.Inline
import MarkdownModule.Markdown.Inline.Side

/-!
# Pieces of a text

A text is read into pieces from left to right.  A run of asterisks, underscores or tildes, and an
opening bracket, are pieces whose meaning depends on what follows; when they turn out to mean
nothing they are plain characters.

* `Run.ofSides`   what a run may do, by the characters on its sides
* `settle`        the inline content that pieces come to when nothing more follows
-/

namespace MarkdownModule.Markdown

/-! ## runs -/

/-- a row of equal marks of emphasis -/
structure Run where
  marker : Char
  size : Nat
  opens : Bool
  closes : Bool

namespace Run

/-- whether a character is a mark of emphasis that lets other marks stand beside it -/
def isBeside (strikes : Bool) (c : Option Char) : Bool :=
  c == some '*' || c == some '_' || (strikes && c == some '~')

/-- a run between two characters, in a text that may be struck through or not -/
def ofSides (strikes : Bool) (marker : Char) (size : Nat) (before after : Option Char) : Run :=
  let l := Side.ofChar? before
  let r := Side.ofChar? after
  let tilde := marker = '~'
  let opens := r = .word || (r = .punctuation && l ≠ .word) || (!tilde && isBeside strikes after)
  let closes := l = .word || (l = .punctuation && r ≠ .word) || (!tilde && isBeside strikes before)
  if marker = '_' then
    { marker, size, opens := opens && (l ≠ .word || !closes)
      closes := closes && (r ≠ .word || !opens) }
  else { marker, size, opens, closes }

def text (r : Run) : Text := List.replicate r.size r.marker

/-- whether emphasis may reach from the run `o` to the run `r` -/
def pairs (o r : Run) : Bool :=
  o.opens && o.marker = r.marker
    && !((o.closes || r.opens) && r.size % 3 ≠ 0 && (o.size + r.size) % 3 = 0)
    && (r.marker ≠ '~' || (o.size = r.size && r.size ≤ 2))

end Run

/-! ## brackets -/

inductive BracketKind where
  | link
  | image
  | footnote
deriving DecidableEq

namespace BracketKind

def text : BracketKind → Text
  | .link => ['[']
  | .image => ['!', '[']
  | .footnote => ['[', '^']

end BracketKind

/-- an opening bracket whose closing one was not met -/
structure Bracket where
  kind : BracketKind
  /-- the text after it -/
  after : Text
  /-- whether a link may still begin here: a link holds no other link -/
  active : Bool := true

/-! ## pieces -/

inductive Piece where
  /-- characters that stand for themselves -/
  | data (s : Text)
  | node (n : Inline)
  /-- a line ending, and its place in the document -/
  | lineEnd (place : Nat)
  /-- a line ending after a backslash -/
  | brokenLine
  | run (r : Run)
  | bracket (b : Bracket)

namespace Piece

/-- the characters of a piece that stands for itself -/
def text? : Piece → Option Text
  | .data s => some s
  | .run r => some r.text
  | .bracket b => some b.kind.text
  | _ => none

end Piece

def merge : List Piece → List Piece
  | [] => []
  | p :: ps =>
    match p.text? with
    | none => p :: merge ps
    | some s =>
      match merge ps with
      | .data t :: rest => .data (s ++ t) :: rest
      | rest => .data s :: rest

/-! ## inline content -/

def textOf (s : Text) : List Inline := if s.isEmpty then [] else [.text s]

/-- whether blanks before a line ending make it a line break: two spaces or more -/
def breaksLine (blanks : Text) : Bool := 2 ≤ blanks.length && blanks.all (· = ' ')

/-- the inline content of merged pieces: blanks around line endings are dropped, and `fresh` tells
whether the first piece begins a line -/
def settleMerged : Bool → List Piece → List Inline
  | _, [] => []
  | fresh, .data s :: .lineEnd place :: ps =>
    let kept := Text.dropEndWhile isGap s
    let ending := if breaksLine (s.drop kept.length) then .hardBreak else .softBreak place
    textOf (if fresh then kept.dropWhile isGap else kept) ++ ending :: settleMerged true ps
  | fresh, .data s :: ps =>
    textOf (if fresh then s.dropWhile isGap else s) ++ settleMerged false ps
  | _, .lineEnd place :: ps => .softBreak place :: settleMerged true ps
  | _, .brokenLine :: ps => .hardBreak :: settleMerged true ps
  | _, .node n :: ps => n :: settleMerged false ps
  | _, .run r :: ps => .text r.text :: settleMerged false ps
  | _, .bracket b :: ps => .text b.kind.text :: settleMerged false ps

/-- the inline content that pieces come to, inside of emphasis or a link -/
def settle (ps : List Piece) : List Inline := settleMerged false (merge ps)

def dropEndBlanks : List Piece → List Piece
  | [] => []
  | [.data s] => [.data (Text.dropEndWhile isGap s)]
  | p :: ps => p :: dropEndBlanks ps

def settleAll (ps : List Piece) : List Inline := settleMerged true (dropEndBlanks (merge ps))

end MarkdownModule.Markdown

import MarkdownModule.Markdown.Block
import MarkdownModule.Markdown.Inline.CodeSpan
import MarkdownModule.Markdown.Line
import MarkdownModule.Options.Renderer

/-!
# Fences

A fence is a row of three or more backticks or tildes before and after code, or of two or more
dollar signs before and after a formula.

* `Fence.open?`     the fence that a line is
* `Fence.isClosed`  whether a line closes a fence
* `Fence.block`     what stands between fences
-/

namespace MarkdownModule.Markdown

/-- the most columns of blanks before a mark that begins a block -/
def mostIndent : Nat := 3

/-- a fence that opens code or a formula -/
structure Fence where
  marker : Char
  size : Nat
  /-- the columns of blanks before it -/
  indent : Nat
  /-- the first word after it -/
  info : Text
deriving DecidableEq

namespace Fence

/-- the fewest marks of a fence; nothing for a character that makes none -/
def fewest? (o : MarkdownSettings) (c : Char) : Option Nat :=
  if c = '\x60' || c = '~' then some 3 else if c = '$' && o.mathFlow then some 2 else none

/-- the fence that a line is; after backticks and dollar signs no more of them may follow -/
def open? (o : MarkdownSettings) (l : Line) : Option Fence := do
  let s := l.inner
  let c ← s.head?
  let fewest ← fewest? o c
  let size := runLength c s
  let after := s.drop size
  if mostIndent < l.indent || size < fewest || (c ≠ '~' && after.contains c) then none
  else some ⟨c, size, l.indent, (after.dropWhile isGap).takeWhile (!isGap ·)⟩

def isClosed (f : Fence) (l : Line) : Bool :=
  let s := l.inner
  let size := runLength f.marker s
  l.indent ≤ mostIndent && f.size ≤ size && (s.drop size).all isGap

def lineText (f : Fence) (l : Line) : Text := (l.skip f.indent).text

/-- the lines, each with its line ending -/
def closedText (lines : List Text) : Text := lines.flatMap (· ++ ['\n'])

/-- the lines with line endings between them, and one at the end if a line is not empty -/
def openText (lines : List Text) : Text :=
  let t := List.intercalate ['\n'] lines
  if lines.all (·.isEmpty) || Text.endsWith '\n' t then t else t ++ ['\n']

def block {α : Type} (f : Fence) (text : Text) : Block α :=
  if f.marker = '$' then .formula text else .code (decode f.info) text

end Fence

end MarkdownModule.Markdown

import MarkdownModule.Markdown.Block.Fence

/-!
# Tables

A table begins with a row of cells over a row of hyphens that tells how its columns stand.  Bars
divide the cells of a row; a bar after a backslash does not.

* `Table.cells`      the cells of a row
* `Table.columns?`   the columns that a row of hyphens gives
* `Table.open?`      the columns and the head of a table that two lines open
-/

namespace MarkdownModule.Markdown.Table

def splitBars : Text → List Text
  | [] => [[]]
  | '\\' :: c :: r =>
    if c = '\\' || c = '|' then
      match splitBars r with
      | [] => [['\\', c]]
      | w :: ws => ('\\' :: c :: w) :: ws
    else
      match splitBars (c :: r) with
      | [] => [['\\']]
      | w :: ws => ('\\' :: w) :: ws
  | c :: r =>
    if c = '|' then [] :: splitBars r
    else
      match splitBars r with
      | [] => [[c]]
      | w :: ws => (c :: w) :: ws

def trim (s : Text) : Text := Text.dropEndWhile isGap (s.dropWhile isGap)

/-- the cells without an empty one that stands after the last bar -/
def dropEmptyLast : List Text → List Text
  | [] => []
  | [c] => [c]
  | [c, []] => [c]
  | c :: cs => c :: dropEmptyLast cs

def cells (s : Text) : List Text :=
  let body :=
    match s with
    | '|' :: r => r
    | s => s
  dropEmptyLast ((splitBars body).map trim)

/-! ## columns -/

/-- how the cells of a column stand, by the colons before and after its hyphens -/
def alignment (before after : Bool) : Alignment :=
  match before, after with
  | true, true => .center
  | true, false => .left
  | false, true => .right
  | false, false => .unset

/-- the column that a cell of a row of hyphens gives -/
def column? (s : Text) : Option Alignment :=
  let before := s.head? == some ':'
  let hyphens := if before then s.drop 1 else s
  let after := hyphens.dropWhile (· = '-')
  if hyphens.head? ≠ some '-' then none
  else if after.isEmpty then some (alignment before false)
  else if after = [':'] then some (alignment before true)
  else none

/-- the columns that a row of hyphens gives: it has to hold a bar or a colon -/
def columns? (l : Line) : Option (List Alignment) :=
  let s := l.inner
  if mostIndent < l.indent || !(s.contains '|' || s.contains ':') then none
  else (cells s).mapM column?

/-- the columns and the head of the table that a line opens over a row of hyphens -/
def open? (head hyphens : Line) : Option (List Alignment × List Text) := do
  let columns ← columns? hyphens
  let cs := cells head.inner
  if mostIndent < head.indent || trim head.inner = ['|'] || cs.length ≠ columns.length then none
  else some (columns, cs)

end MarkdownModule.Markdown.Table

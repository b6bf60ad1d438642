import MarkdownModule.Markdown.Escape
import MarkdownModule.Text.Bytes

/-!
# Lines read from the left

The structure of a document is read line by line, and each line from the left, in columns: a tab
reaches to the next multiple of four, and a mark may take a part of it.  `Line` holds what is left
of a line.

* `Line.indent`   the columns of blanks at the start
* `Line.skip`     the line without so many columns of blanks
* `Line.split`    the lines of a document, each with the place of its line ending
-/

namespace MarkdownModule.Markdown

/-- what is left of a line -/
structure Line where
  /-- columns left of a tab that was taken in part -/
  spare : Nat := 0
  /-- the column of the first character of the rest -/
  column : Nat := 0
  rest : Text
  /-- the place of the line ending in the document, in bytes -/
  stop : Nat
deriving DecidableEq

namespace Line

def tabWidth (column : Nat) : Nat := 4 - column % 4

/-- the columns of blanks at the start of a text that stands at a column -/
def gapWidth : Nat → Text → Nat
  | _, [] => 0
  | column, c :: r =>
    if c = ' ' then gapWidth (column + 1) r + 1
    else if c = '\t' then gapWidth (column + tabWidth column) r + tabWidth column
    else 0

def indent (l : Line) : Nat := l.spare + gapWidth l.column l.rest

def inner (l : Line) : Text := l.rest.dropWhile isGap

def isBlank (l : Line) : Bool := l.inner.isEmpty

/-- the text, with spaces for the columns left of a tab -/
def text (l : Line) : Text := List.replicate l.spare ' ' ++ l.rest

def skipColumn (l : Line) : Line :=
  if 0 < l.spare then { l with spare := l.spare - 1 }
  else
    match l.rest with
    | [] => l
    | c :: r =>
      if c = ' ' then { l with rest := r, column := l.column + 1 }
      else if c = '\t' then
        { l with rest := r, column := l.column + tabWidth l.column
                 spare := tabWidth l.column - 1 }
      else l

/-- the line without `n` columns of blanks, or without all of them if they are fewer -/
def skip : Nat → Line → Line
  | 0, l => l
  | n + 1, l => skip n l.skipColumn

def skipAll (l : Line) : Line := l.skip l.indent

/-- the line without its first `n` characters, none of which is a tab -/
def drop (n : Nat) (l : Line) : Line :=
  { l with rest := l.rest.drop n, column := l.column + Text.byteSize (l.rest.take n) }

/-! ## lines of a document -/

/-- the lines of texts that stand one after the other, the first at a place -/
def place : Nat → List Text → List Line
  | _, [] => []
  | start, t :: ts =>
    { rest := t, stop := start + Text.byteSize t } :: place (start + Text.byteSize t + 1) ts

/-- the lines of a document; a line ending at its end begins an empty line -/
def split (s : Text) : List Line := place 0 (Text.splitOn '\n' s)

end Line

end MarkdownModule.Markdown

import MarkdownModule.Markdown.Escape

/-!
# Code spans

A code span stands between two runs of equal length of backticks; a formula in text stands between
runs of dollar signs in the same way.

* `readSpan?`       the content between two runs, and the text after the second
* `spanContent`     the content as it is shown
-/

namespace MarkdownModule.Markdown

def runLength (c : Char) (s : Text) : Nat := (s.takeWhile (· = c)).length

/-- the text up to a run of exactly `n` characters equal to `c`, and the text after the run; each
step takes one unit of fuel -/
def spanUntil? (c : Char) (n : Nat) : Nat → Text → Option (Text × Text)
  | 0, _ => none
  | _ + 1, [] => none
  | fuel + 1, d :: r =>
    if d = c then
      let k := runLength c (d :: r)
      let rest := (d :: r).drop k
      if k = n then some ([], rest)
      else (spanUntil? c n fuel rest).map fun t => (List.replicate k c ++ t.1, t.2)
    else (spanUntil? c n fuel r).map fun t => (d :: t.1, t.2)

/-- the content between the run of `c` at the start and the next run of the same length, and the
text after that -/
def readSpan? (c : Char) (s : Text) : Option (Text × Text) :=
  let k := runLength c s
  spanUntil? c k (s.length + 1) (s.drop k)

/-- the text without one space at each end, when it begins and ends with a space and holds more
than spaces -/
def unpad (s : Text) : Text :=
  if 2 < s.length && s.head? == some ' ' && Text.endsWith ' ' s && s.any (· ≠ ' ') then
    (s.drop 1).dropLast
  else s

def unescapeBars : Text → Text
  | [] => []
  | '\\' :: '|' :: r => '|' :: unescapeBars r
  | c :: r => c :: unescapeBars r

/-- the content of a span as it is shown: line endings become spaces, and in a cell of a table a
bar is written with a backslash -/
def spanContent (inTable : Bool) (s : Text) : Text :=
  let shown := unpad (s.map fun c => if c = '\n' then ' ' else c)
  if inTable then unescapeBars shown else shown

end MarkdownModule.Markdown

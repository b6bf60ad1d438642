import MarkdownModule.Markdown.Inline.Piece

/-!
# Emphasis

Runs are paired from left to right: a run that closes is paired with the nearest run before it from
which emphasis may reach to it, and both give up two marks if both have them, or else one.

* `closeRun`   the pieces before a run, after it was paired as often as it can be
* `pairRuns`   pieces with all their runs paired
-/

namespace MarkdownModule.Markdown

/-- the pieces before a run, nearest first, cut at the run from which emphasis reaches to it -/
def findOpener? (r : Run) : List Piece → Option (List Piece × Run × List Piece)
  | [] => none
  | .run o :: ps =>
    if o.pairs r then some ([], o, ps)
    else (findOpener? r ps).map fun t => (.run o :: t.1, t.2)
  | p :: ps => (findOpener? r ps).map fun t => (p :: t.1, t.2)

/-- the emphasis that `taken` marks on both sides make -/
def emphasize (marker : Char) (taken : Nat) (inner : List Inline) : Inline :=
  if marker = '~' then .struck inner
  else if taken = 1 then .emphasis inner
  else .strong inner

def Run.less (r : Run) (taken : Nat) : List Piece :=
  if r.size ≤ taken then [] else [.run { r with size := r.size - taken }]

/-- the pieces up to a run, nearest first, after the run was paired at most so many times with runs
before it -/
def closeRun : Nat → Run → List Piece → List Piece
  | 0, r, before => .run r :: before
  | n + 1, r, before =>
    if r.closes then
      match findOpener? r before with
      | none => .run r :: before
      | some (inner, o, rest) =>
        let taken := if 1 < o.size && 1 < r.size then 2 else 1
        let before := .node (emphasize r.marker taken (settle inner.reverse)) :: o.less taken ++ rest
        if r.size ≤ taken then before
        else closeRun n { r with size := r.size - taken } before
    else .run r :: before

def addPiece (before : List Piece) : Piece → List Piece
  | .run r => closeRun r.size r before
  | p => p :: before

def pairRuns (ps : List Piece) : List Piece := (ps.foldl addPiece []).reverse

end MarkdownModule.Markdown

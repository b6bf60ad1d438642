import MarkdownModule.Markdown.Block.Stack

/-!
# Documents

A document is read line by line.  A line first goes on with the open containers, then it opens new
ones, and what is left of it goes on with the open block or begins another one.  A line that does
not go on with all containers may still go on with a paragraph.

* `Stack.readLine`   the state after one more line
* `readDocument`     the blocks of a document
-/

namespace MarkdownModule.Markdown

namespace Stack

/-! ## blocks -/

/-- a line of a block in which no container begins -/
def goOn (s : Stack) (l : Line) : Stack :=
  match s.leaf with
  | .fenced f lines =>
    if f.isClosed l then
      { s.add [f.block (Fence.closedText lines.reverse)] with leaf := .closed }
    else { s with leaf := .fenced f (f.lineText l :: lines) }
  | .html k lines =>
    if l.isBlank && k.endsAtBlank then s.closeLeaf.noteBlank
    else
      let s := { s with leaf := .html k (l.text :: lines) }
      if k.ends l.text then s.closeLeaf else s
  | _ => s

def start (s : Stack) (l : Line) : Start → Stack
  | .fence f => { s.begin with leaf := .fenced f [] }
  | .html k =>
    let s := { s.begin with leaf := .html k [l.text] }
    if k.endsAtOnce l then s.closeLeaf else s
  | .heading level text => s.begin.add [.heading level { text }]
  | .rule => s.begin.add [.thematicBreak]

/-- a line where no block is open -/
def fresh (o : MarkdownSettings) (s : Stack) (l : Line) : Stack :=
  let underlined := s.underlined
  let s := { s with leaf := .closed, underlined := false }
  if l.isBlank then s.noteBlank
  else if mostIndent < l.indent then
    { s.begin with leaf := .indentedCode [(l.skip (mostIndent + 1)).text] 0 }
  else if underlined && (underline? l).isSome then { s.begin with leaf := .paragraph [l] }
  else
    match Start.ofLine? o true l with
    | some b => s.start l b
    | none => { s.begin with leaf := .paragraph [l] }

/-- the line that underlines a paragraph, by the level of the heading; after definitions alone it
begins a paragraph -/
def underline (s : Stack) (lines : List Line) (l : Line) (level : Nat) : Stack :=
  let (ds, rest) := (Content.ofLines lines).cutDefinitions
  let s := s.add (ds.map .definition)
  if rest.text.isEmpty then { s with leaf := .paragraph [l], underlined := true }
  else { s.add [.heading level rest] with leaf := .closed, underlined := true }

def goOnParagraph (o : MarkdownSettings) (s : Stack) (lines : List Line) (l : Line) : Stack :=
  if l.isBlank then s.closeLeaf.noteBlank
  else
    match if o.table then lines.head?.bind (Table.open? · l) else none with
    | some (columns, head) =>
      { s.add (Leaf.paragraphBlocks (lines.drop 1)) with leaf := .table columns head [] }
    | none =>
      match underline? l with
      | some level => s.underline lines l level
      | none =>
        match Start.ofLine? o false l with
        | some b => s.closeLeaf.start l b
        | none => { s with leaf := .paragraph (l :: lines) }

def goOnCode (o : MarkdownSettings) (s : Stack) (lines : List Text) (blanks : Nat) (l : Line) :
    Stack :=
  if mostIndent < l.indent then
    let text := (l.skip (mostIndent + 1)).text
    { s.forgetBlank with leaf := .indentedCode (text :: List.replicate blanks [] ++ lines) 0 }
  else if l.isBlank then { s.noteBlank with leaf := .indentedCode lines (blanks + 1) }
  else s.closeLeaf.fresh o l

def goOnTable (o : MarkdownSettings) (s : Stack) (columns : List Alignment) (head : List Text)
    (rows : List (List Text)) (l : Line) : Stack :=
  if l.isBlank || mostIndent < l.indent || (Start.ofLine? o true l).isSome then
    s.closeLeaf.fresh o l
  else { s with leaf := .table columns head (Table.cells l.inner :: rows) }

/-- a line that goes on with the open block, or else begins another one -/
def readInner (o : MarkdownSettings) (s : Stack) (l : Line) : Stack :=
  match s.leaf with
  | .closed => s.fresh o l
  | .paragraph lines => { s with underlined := false }.goOnParagraph o lines l
  | .indentedCode lines blanks => s.goOnCode o lines blanks l
  | .table columns head rows => s.goOnTable o columns head rows l
  | _ => s.goOn l

/-! ## containers -/

/-- the open containers, from the document to the innermost one, that a line goes on with, those
that it does not, and the line after what goes on with them -/
def follow : List Frame → Line → List Frame × List Frame × Line
  | [], l => ([], [], l)
  | f :: fs, l =>
    match f.container.continue? l with
    | none => ([], f :: fs, l)
    | some (c, l) =>
      let (kept, left, l) := follow fs l
      ({ f with container := c } :: kept, left, l)

/-- the containers that a line opens after the first one, at most `n` of them, and the line after
their marks -/
def openMore (o : MarkdownSettings) : Nat → Stack → Line → Stack × Line
  | 0, s, l => (s, l)
  | n + 1, s, l =>
    match Container.open? o false l with
    | some (c, l) => openMore o n (s.enter c) l
    | none => (s, l)

/-- whether a line that does not go on with all containers goes on with a paragraph -/
def isLazy (o : MarkdownSettings) (s : Stack) (l : Line) : Bool :=
  !l.isBlank && (Start.ofLine? o true l).isNone
    && (s.leaf.isParagraph || (s.underlined && l.indent ≤ mostIndent))

def addLazy (s : Stack) (l : Line) : Stack :=
  match s.leaf with
  | .paragraph lines => { s with leaf := .paragraph (l :: lines), underlined := false }
  | _ => { s.begin with leaf := .paragraph [l], underlined := false }

/-- the state with the containers `frames`, given from the document to the innermost one -/
def withFrames (s : Stack) (frames : List Frame) : Stack :=
  match frames.reverse with
  | [] => s
  | top :: outer => { s with top, outer }

def readLine (o : MarkdownSettings) (s : Stack) (l : Line) : Stack :=
  let (kept, left, l) := follow (s.outer.reverse ++ [s.top]) l
  let s := s.withFrames (kept ++ left)
  let whole := left.isEmpty
  if whole && s.leaf.isSolid then s.goOn l
  else
    match Container.open? o (whole && s.leaf.isParagraph) l with
    | some (c, l) =>
      let (s, l) := openMore o l.rest.length ((s.leave left.length).enter c) l
      s.fresh o l
    | none =>
      if whole then s.readInner o l
      else if s.isLazy o l then s.addLazy l
      else (s.leave left.length).fresh o l

end Stack

/-! ## documents -/

/-- the lines of a document whose first one stands at a place, but for the empty one after a line
ending at its end -/
def linesFrom (start : Nat) (s : Text) : List Line :=
  let lines := Line.place start (Text.splitOn '\n' s)
  if s.isEmpty || Text.endsWith '\n' s then lines.dropLast else lines

def readBlocksFrom (o : MarkdownSettings) (start : Nat) (s : Text) : List (Block Content) :=
  let stack := (linesFrom start s).foldl (Stack.readLine o) {}
  let stack := if Text.endsWith '\n' s then { stack with leaf := stack.leaf.afterLast } else stack
  (stack.leave stack.outer.length).top.blocks.reverse

/-- the blocks of a document: a byte order mark at its start is skipped -/
def readDocument (o : MarkdownSettings) (s : Text) : List (Block Content) :=
  match s with
  | '\ufeff' :: r => readBlocksFrom o 3 r
  | s => readBlocksFrom o 0 s

end MarkdownModule.Markdown

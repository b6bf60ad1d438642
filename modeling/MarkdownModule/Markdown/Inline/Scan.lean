import MarkdownModule.Markdown.Definition
import MarkdownModule.Markdown.Inline.Autolink
import MarkdownModule.Markdown.Inline.BareLink
import MarkdownModule.Markdown.Inline.CodeSpan
import MarkdownModule.Markdown.Inline.Emphasis
import MarkdownModule.Markdown.Inline.RawTag
import MarkdownModule.Options.Renderer

/-!
# Reading inline content

A text is read from left to right into pieces.  A closing bracket looks back for the bracket that
it closes: together they are a footnote call, a link or an image, or plain characters.

* `Scope`         what a text may refer to
* `Content`       a text with the places of its line endings
* `Scope.read`    the inline content of a text
-/

namespace MarkdownModule.Markdown

/-- a text that holds inline content -/
structure Content where
  text : Text
  /-- the places of its line endings in the document, in bytes -/
  lineEnds : List Nat := []
deriving DecidableEq

/-- what a text may refer to, and where it stands -/
structure Scope where
  settings : MarkdownSettings
  definitions : List Definition
  /-- the labels of the footnotes, in their normal form -/
  footnotes : List Text
  inTable : Bool := false

/-! ## brackets -/

/-- the pieces before a closing bracket, nearest first, cut at the nearest opening bracket -/
def findBracket? : List Piece → Option (List Piece × Bracket × List Piece)
  | [] => none
  | .bracket b :: ps => some ([], b, ps)
  | p :: ps => (findBracket? ps).map fun t => (p :: t.1, t.2)

/-- a piece after a link was made: no link may begin at an earlier bracket -/
def Piece.deactivate : Piece → Piece
  | .bracket b => if b.kind = .image then .bracket b else .bracket { b with active := false }
  | p => p

inductive Closing where
  | call (label : Text)
  | resource (r : Resource)

namespace Scope

def resource? (e : Scope) (label : Text) : Option Resource := Definition.find? e.definitions label

/-- the resource of a reference whose own label has the resource `own`, before a `[`: the label
after it counts if it is defined, and an empty one stands for the reference's own -/
def reference? (e : Scope) (own : Option Resource) (s : Text) : Option (Resource × Text) :=
  let full := (Label.read? s).bind fun (label, rest) =>
    (e.resource? (Label.normal label)).map fun r => (r, rest)
  match full, own, s with
  | some t, _, _ => some t
  | none, some r, ']' :: rest => some (r, rest)
  | none, _, _ => none

/-- what a bracket is that was opened as `kind`, holds `label` as it is written and is closed before
`s`, and the text after it -/
def closing? (e : Scope) (kind : BracketKind) (label s : Text) : Option (Closing × Text) :=
  let normal := Label.normal label
  if kind = .footnote && e.footnotes.contains normal then some (.call normal, s)
  else
    let own := e.resource? (if kind = .footnote then '^' :: normal else normal)
    let found :=
      match s with
      | '(' :: r => readResource? r <|> own.map fun o => (o, s)
      | '[' :: r => e.reference? own r
      | _ => own.map fun o => (o, s)
    found.map fun t => (.resource t.1, t.2)

/-- the piece that a closed bracket makes of the pieces inside of it -/
def closed (b : Bracket) (inner : List Piece) : Closing → Piece
  | .call label => .node (.footnoteCall label)
  | .resource r =>
    let inner := if b.kind = .footnote then .data ['^'] :: inner else inner
    let content := settle (pairRuns inner)
    if b.kind = .image then .node (.image r.destination r.title content)
    else .node (.link r.destination r.title content)

/-- the pieces up to a closing bracket, nearest first, and the text after what it closes -/
def closeBracket (e : Scope) (before : List Piece) (s : Text) : List Piece × Text :=
  match findBracket? before with
  | none => (.data [']'] :: before, s)
  | some (inner, b, outer) =>
    let plain := (.data [']'] :: inner ++ .data b.kind.text :: outer, s)
    if b.active then
      match e.closing? b.kind (b.after.take (b.after.length - s.length - 1)) s with
      | none => plain
      | some (c, rest) =>
        let outer := if b.kind = .image then outer else outer.map Piece.deactivate
        (closed b inner.reverse c :: outer, rest)
    else plain

/-! ## pieces -/

/-- the pieces up to a run of marks of code or of a formula, nearest first, and the text after what
the run begins -/
def openSpan (e : Scope) (before : List Piece) (marker : Char) (s : Text) : List Piece × Text :=
  match readSpan? marker s with
  | some (content, rest) =>
    let shown := spanContent e.inTable content
    (.node (if marker = '$' then .formula shown else .code shown) :: before, rest)
  | none =>
    let k := runLength marker s
    (.data (List.replicate k marker) :: before, s.drop k)

def openAngle (e : Scope) (before : List Piece) (s : Text) : List Piece × Text :=
  match readAutolink? s with
  | some ((destination, shown), rest) => (.node (.autolink destination shown) :: before, rest)
  | none =>
    match if e.settings.htmlText then RawTag.end? s else none with
    | some rest =>
      (.node (.html (RawTag.shown ('<' :: s.take (s.length - rest.length)))) :: before, rest)
    | none => (.data ['<'] :: before, s)

def openBracket (e : Scope) (before : List Piece) (s : Text) : List Piece × Text :=
  match s with
  | '^' :: r =>
    if e.settings.footnoteCall then (.bracket { kind := .footnote, after := r } :: before, r)
    else (.bracket { kind := .link, after := s } :: before, s)
  | _ => (.bracket { kind := .link, after := s } :: before, s)

def openImage (e : Scope) (before : List Piece) (s : Text) : List Piece × Text :=
  match s with
  | '[' :: r =>
    if e.settings.footnoteCall && r.head? == some '^' then (.data ['!'] :: before, s)
    else (.bracket { kind := .image, after := r } :: before, r)
  | _ => (.data ['!'] :: before, s)

def openEscape (before : List Piece) (s : Text) : List Piece × Text :=
  match s with
  | [] => (.data ['\\'] :: before, s)
  | c :: r =>
    if c = '\n' then (.brokenLine :: before, r)
    else if isAsciiPunctuation c then (.node (.decoded [c]) :: before, r)
    else (.data ['\\'] :: before, s)

def isMarker (e : Scope) (c : Char) : Bool :=
  c = '*' || c = '_' || (c = '~' && e.settings.strikethrough)

/-- the pieces up to a run of marks of emphasis, after the character `last`, and the text after -/
def openRun (e : Scope) (last : Option Char) (before : List Piece) (c : Char) (s : Text) :
    List Piece × Text :=
  let k := runLength c s
  let rest := s.drop k
  (.run (Run.ofSides e.settings.strikethrough c k last rest.head?) :: before, rest)

def bareLink? (e : Scope) (last : Option Char) (c : Char) (s : Text) : Option (Inline × Text) :=
  if e.settings.autolinkLiteral && "HWhw".toList.contains c then readBareLink? last s else none

/-- the place of the line ending before `s`, where `ends` holds the places of all line endings from
the last one to the first -/
def placeBefore (ends : List Nat) (s : Text) : Nat := (ends[s.count '\n']?).getD 0

/-- the pieces up to the construct that the character `c` begins, nearest first, and the text after
it -/
def step (e : Scope) (ends : List Nat) (last : Option Char) (before : List Piece) (c : Char)
    (r : Text) : List Piece × Text :=
  if c = '\\' then openEscape before r
  else if c = '\n' then (.lineEnd (placeBefore ends r) :: before, r)
  else if c = '&' then
    match readReference? r with
    | some (s, rest) => (.node (.decoded s) :: before, rest)
    | none => (.data [c] :: before, r)
  else if c = '\x60' || (c = '$' && e.settings.mathText) then e.openSpan before c (c :: r)
  else if c = '<' then e.openAngle before r
  else if c = '!' then e.openImage before r
  else if c = '[' then e.openBracket before r
  else if c = ']' then e.closeBracket before r
  else if e.isMarker c then e.openRun last before c (c :: r)
  else
    match e.bareLink? last c (c :: r) with
    | some (n, rest) => (.node n :: before, rest)
    | none => (.data [c] :: before, r)

def lastBefore (s rest : Text) : Option Char := (s.take (s.length - rest.length)).getLast?

/-- the pieces of a text, nearest first, after the pieces `before` whose last character is `last`;
each step takes one unit of fuel -/
def scan (e : Scope) (ends : List Nat) : Nat → Option Char → List Piece → Text → List Piece
  | 0, _, before, _ => before
  | _ + 1, _, before, [] => before
  | fuel + 1, last, before, c :: r =>
    let (pieces, rest) := e.step ends last before c r
    scan e ends fuel (lastBefore (c :: r) rest) pieces rest

/-! ## whole texts -/

/-- the check box that begins a text, and the text after it, which has to hold more than blanks -/
def readCheckBox? : Text → Option (Bool × Text)
  | '[' :: c :: ']' :: r =>
    let goesOn :=
      match r with
      | [] => false
      | '\n' :: _ => true
      | d :: _ => isGap d && !(r.dropWhile isGap).isEmpty
    if !goesOn then none
    else if isWide c then some (false, r)
    else if c = 'x' || c = 'X' then some (true, r)
    else none
  | _ => none

/-- the inline content of a text; `inItem` tells whether it begins an item of a list -/
def readPieces (e : Scope) (inItem : Bool) (c : Content) : List Inline :=
  let ends := c.lineEnds.reverse
  let pieces :=
    match if inItem && e.settings.taskListItem then readCheckBox? c.text else none with
    | some (checked, rest) => e.scan ends c.text.length (some ']') [.node (.checkBox checked)] rest
    | none => e.scan ends c.text.length none [] c.text
  settleAll (pairRuns pieces.reverse)

end Scope

end MarkdownModule.Markdown

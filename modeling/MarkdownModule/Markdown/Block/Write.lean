import MarkdownModule.Markdown.Block.Resolve
import MarkdownModule.Markdown.Inline.Write

/-!
# Blocks in HTML

Each block begins on a line of its own.  The paragraphs of a list that is not loose are written
without tags, and the first of them goes on with the line of its item.

* `Written`        a block in HTML
* `putBlocks`      blocks in HTML after a text
* `writeDocument`  a document in HTML
-/

namespace MarkdownModule.Markdown

/-! ## rows of blocks -/

inductive Written where
  /-- a block of which nothing is written at its place -/
  | hidden
  /-- a paragraph without tags -/
  | bare (s : Text)
  | block (s : Text)

/-- a text with blocks after it; `first` tells whether a paragraph without tags may go on with the
line -/
def putBlocks (first : Bool) (before : Text) : List Written → Text
  | [] => before
  | .hidden :: ws => putBlocks first before ws
  | .bare s :: ws => putBlocks false ((if first then before else Footnote.endLine before) ++ s) ws
  | .block s :: ws => putBlocks false (Footnote.endLine before ++ s) ws

/-- whether the last block that is written is one with tags -/
def endsWithBlock (ws : List Written) : Bool :=
  ws.foldl (fun last w => match w with | .hidden => last | .bare _ => false | .block _ => true) false

def writeItem (ws : List Written) : Text :=
  let t := putBlocks true "<li>".toList ws
  (if endsWithBlock ws then Footnote.endLine t else t) ++ "</li>".toList

def writeQuote (ws : List Written) : Text :=
  Footnote.endLine (putBlocks true "<blockquote>".toList ws) ++ "</blockquote>".toList

/-- the start tag of a list and its name -/
def listTags (marker : Char) (start : Nat) : Text × Text :=
  if marker = '.' || marker = ')' then
    ("<ol".toList
      ++ (if start = 1 then [] else " start=\"".toList ++ Footnote.digits start ++ ['"']) ++ ['>'],
     "</ol>".toList)
  else ("<ul>".toList, "</ul>".toList)

def writeList (marker : Char) (start : Nat) (items : List Text) : Text :=
  let (opening, closing) := listTags marker start
  opening ++ items.flatMap ('\n' :: ·) ++ '\n' :: closing

/-! ## single blocks -/

def writeCode (language text : Text) : Text :=
  "<pre><code".toList
    ++ (if language.isEmpty then [] else " class=\"language-".toList ++ escape language ++ ['"'])
    ++ '>' :: escape text ++ "</code></pre>".toList

def writeFormula (text : Text) : Text :=
  "<pre><code class=\"language-math math-display\">".toList ++ escape text
    ++ "</code></pre>".toList

def writeHeading (level : Nat) (content : Text) : Text :=
  "<h".toList ++ Footnote.digits level ++ '>' :: content
    ++ "</h".toList ++ Footnote.digits level ++ ['>']

/-! ## tables -/

def alignAttribute : Alignment → Text
  | .unset => []
  | .left => " align=\"left\"".toList
  | .center => " align=\"center\"".toList
  | .right => " align=\"right\"".toList

def writeCells (name : Text) : List Alignment → List Text → Text
  | [], _ => []
  | a :: as, ts =>
    '\n' :: '<' :: name ++ alignAttribute a ++ '>' :: ts.headD [] ++ '<' :: '/' :: name ++ '>'
      :: writeCells name as (ts.drop 1)

def writeRow (name : String) (columns : List Alignment) (cells : List Text) : Text :=
  "\n<tr>".toList ++ writeCells name.toList columns cells ++ "\n</tr>".toList

def writeTable (columns : List Alignment) (head : List Text) (rows : List (List Text)) : Text :=
  let body :=
    if rows.isEmpty then []
    else "\n<tbody>".toList ++ rows.flatMap (writeRow "td" columns) ++ "\n</tbody>".toList
  "<table>\n<thead>".toList ++ writeRow "th" columns head ++ "\n</thead>".toList ++ body
    ++ "\n</table>".toList

/-- the contents of cells in HTML, and the calls of footnotes after them -/
def writeContents (o : MarkdownSettings) (cs : Calls) : List (List Inline) → List Text × Calls
  | [] => ([], cs)
  | c :: rest =>
    let t := writeInlines o {} cs c
    let u := writeContents o t.2 rest
    (t.1 :: u.1, u.2)

def writeRows (o : MarkdownSettings) (cs : Calls) :
    List (List (List Inline)) → List (List Text) × Calls
  | [] => ([], cs)
  | r :: rest =>
    let t := writeContents o cs r
    let u := writeRows o t.2 rest
    (t.1 :: u.1, u.2)

/-! ## blocks -/

/-- what the writing of blocks leaves for the end of a document -/
structure Notes where
  calls : Calls := []
  /-- the footnotes with their texts in HTML -/
  bodies : List (Text × Text) := []

mutual

/-- a block in HTML; `tight` tells whether it is in a list that is not loose -/
def writeBlock (o : MarkdownSettings) (tight : Bool) (n : Notes) : Resolved → Written × Notes
  | .thematicBreak => (.block "<hr />".toList, n)
  | .heading level content =>
    let t := writeInlines o {} n.calls content
    (.block (writeHeading level t.1), { n with calls := t.2 })
  | .paragraph content =>
    let t := writeInlines o {} n.calls content
    (if tight then .bare t.1 else .block ("<p>".toList ++ t.1 ++ "</p>".toList),
      { n with calls := t.2 })
  | .code language s => (.block (writeCode language s), n)
  | .formula s => (.block (writeFormula s), n)
  | .html s => (.block (if o.rawHtml then keep s else escape s), n)
  | .quote inner =>
    let t := writeBlocks o false n inner
    (.block (writeQuote t.1), t.2)
  | .list marker start loose items =>
    let t := writeItems o (!loose) n items
    (.block (writeList marker start t.1), t.2)
  | .table columns head rows =>
    let t := writeContents o n.calls head
    let u := writeRows o t.2 rows
    (.block (writeTable columns t.1 u.1), { n with calls := u.2 })
  | .definition _ => (.hidden, n)
  | .footnote label inner =>
    let t := writeBlocks o false n inner
    (.hidden, { t.2 with bodies := t.2.bodies ++ [(label, putBlocks true [] t.1)] })

def writeBlocks (o : MarkdownSettings) (tight : Bool) (n : Notes) :
    List Resolved → List Written × Notes
  | [] => ([], n)
  | b :: bs =>
    let t := writeBlock o tight n b
    let u := writeBlocks o tight t.2 bs
    (t.1 :: u.1, u.2)

def writeItems (o : MarkdownSettings) (tight : Bool) (n : Notes) :
    List (List Resolved) → List Text × Notes
  | [] => ([], n)
  | i :: is =>
    let t := writeBlocks o tight n i
    let u := writeItems o tight t.2 is
    (writeItem t.1 :: u.1, u.2)

end

/-- a document in HTML: the section of footnotes stands at its end -/
def writeDocument (o : MarkdownSettings) (bs : List Resolved) : Text :=
  let (ws, n) := writeBlocks o false {} bs
  let body := putBlocks true [] ws
  if n.calls.isEmpty then body
  else Footnote.endLine body ++ Footnote.writeSection n.bodies n.calls

end MarkdownModule.Markdown

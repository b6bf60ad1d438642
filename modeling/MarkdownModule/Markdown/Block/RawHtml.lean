import MarkdownModule.Markdown.Block.Fence
import MarkdownModule.Markdown.Inline.RawTag

/-!
# Blocks of raw HTML

A line that begins with markup opens a block of raw HTML.  By the kind of the markup the block ends
with the line that holds a mark, or before the next blank line.

* `RawHtml.open?`   the kind of block that a line opens
* `RawHtml.ends`    whether a line holds the mark that ends a block
-/

namespace MarkdownModule.Markdown

/-- the kinds of blocks of raw HTML -/
inductive RawHtml where
  /-- an element whose content is no markup -/
  | rawElement
  | comment
  | instruction
  | declaration
  | data
  | blockElement
  /-- any tag alone on its line -/
  | loneTag
deriving DecidableEq

namespace RawHtml

/-- the elements whose content is no markup -/
def rawNames : List String := ["pre", "script", "style", "textarea"]

def blockNames : List String :=
  ["address", "article", "aside", "base", "basefont", "blockquote", "body", "caption", "center",
   "col", "colgroup", "dd", "details", "dialog", "dir", "div", "dl", "dt", "fieldset", "figcaption",
   "figure", "footer", "form", "frame", "frameset", "h1", "h2", "h3", "h4", "h5", "h6", "head",
   "header", "hr", "html", "iframe", "legend", "li", "link", "main", "menu", "menuitem", "nav",
   "noframes", "ol", "optgroup", "option", "p", "param", "search", "section", "summary", "table",
   "tbody", "td", "tfoot", "th", "thead", "title", "tr", "track", "ul"]

/-- whether a name is one of several, in any letter case -/
def isAmong (names : List String) (name : Text) : Bool :=
  names.contains (String.ofList (Text.lower name))

/-! ## beginnings -/

/-- whether a tag may end in the line after its name: a blank, a `>`, a `/>` or the end of the line
follows -/
def endsName : Text → Bool
  | [] => true
  | '/' :: '>' :: _ => true
  | c :: _ => isGap c || c = '>'

/-- what a tag opens whose name begins the text; `lone` tells whether any tag alone on its line
counts -/
def ofTag? (lone isEnd : Bool) (s : Text) : Option RawHtml :=
  let name := s.takeWhile RawTag.inName
  let after := s.drop name.length
  let slash := after.head? == some '/'
  if !s.head?.any Char.isAlpha then none
  else if !isEnd && !slash && isAmong rawNames name && endsName after then some .rawElement
  else if isAmong blockNames name then (if endsName after then some .blockElement else none)
  else
    let rest? := if isEnd then RawTag.endTagEnd? s else RawTag.startTagEnd? .ownLine s
    if lone && rest?.any (·.all isGap) then some .loneTag else none

def ofDeclaration? (s : Text) : Option RawHtml :=
  match s with
  | '-' :: '-' :: _ => some .comment
  | c :: _ =>
    if RawTag.dataMark.isPrefixOf s then some .data
    else if c.isAlpha then some .declaration
    else none
  | [] => none

/-- the kind of block that a line opens; `lone` tells whether any tag alone on its line counts -/
def open? (lone : Bool) (l : Line) : Option RawHtml :=
  if mostIndent < l.indent then none
  else
    match l.inner with
    | '<' :: '!' :: s => ofDeclaration? s
    | '<' :: '?' :: _ => some .instruction
    | '<' :: '/' :: s => ofTag? lone true s
    | '<' :: s => ofTag? lone false s
    | _ => none

/-! ## ends -/

def holds (mark : String) (s : Text) : Bool := (RawTag.afterMark? mark.toList s).isSome

/-- whether the end of character data stands in a text: two brackets of their own and a `>` -/
def holdsDataEnd : Text → Bool
  | [] => false
  | ']' :: ']' :: '>' :: _ => true
  | ']' :: ']' :: r => holdsDataEnd r
  | _ :: r => holdsDataEnd r

def holdsRawEnd : Text → Bool
  | [] => false
  | '<' :: '/' :: r =>
    let name := r.takeWhile Char.isAlpha
    (isAmong rawNames name && (r.drop name.length).head? == some '>') || holdsRawEnd r
  | _ :: r => holdsRawEnd r

/-- whether a text holds the mark that ends a block; a blank line ends those that have no mark -/
def ends (k : RawHtml) (s : Text) : Bool :=
  match k with
  | .rawElement => holdsRawEnd s
  | .comment => holds "-->" s
  | .instruction => holds "?>" s
  | .declaration => holds ">" s
  | .data => holdsDataEnd s
  | .blockElement => false
  | .loneTag => false

def endsAtOnce (k : RawHtml) (l : Line) : Bool :=
  match k with
  | .comment => k.ends (l.inner.drop 2)
  | .data => k.ends (l.inner.drop (2 + RawTag.dataMark.length))
  | .instruction => k.ends (l.inner.drop 1)
  | k => k.ends l.inner

def endsAtBlank (k : RawHtml) : Bool := k = .blockElement || k = .loneTag

end RawHtml

end MarkdownModule.Markdown

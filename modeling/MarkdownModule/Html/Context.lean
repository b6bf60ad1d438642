import MarkdownModule.Html.Content

/-!
# The context of a tag

How a tag is read depends on the elements around it.  `Html.Context` follows just as much of them as
that needs: the drawings and formulas that are open, in which names have no special content, and the
menus and frame sets, in which a reader of the whole tree would drop some tags.  A tag of which one
cannot tell whether it would be dropped, and whose content is no markup, is ambiguous.
-/

namespace MarkdownModule.Html

/-- the vocabulary of the elements at a place -/
inductive Vocabulary where
  | html
  | svg
  | math
deriving DecidableEq

/-- the elements that drop some of the tags in them -/
inductive Guard where
  /-- none is open -/
  | none
  /-- inside of `select` -/
  | select
  /-- inside of `select`, and there inside of this many `template` elements -/
  | template (depth : Nat)
  /-- inside of `frameset` or after it -/
  | frameset

/-- what is known of the elements around a place -/
structure Context where
  /-- the vocabularies that are open around the current one, the nearest first -/
  outer : List Vocabulary := []
  /-- the vocabulary at the place -/
  vocabulary : Vocabulary := .html
  guard : Guard := .none

namespace Context

def isOneOf (names : List String) (name : Text) : Bool := names.contains (String.ofList name)

/-! ## ambiguity -/

/-- the guard after a start tag; nothing when the tag is ambiguous -/
def Guard.startTag (g : Guard) (name : Text) : Option Guard :=
  let ambiguous := Content.ofName name ≠ .markup
  match g with
  | .none =>
    if name = "select".toList then some .select
    else if name = "frameset".toList then some .frameset
    else some .none
  | .select =>
    if isOneOf ["select", "textarea", "input", "keygen"] name then some .none
    else if name = "template".toList then some (.template 1)
    else if ambiguous && name ≠ "script".toList then Option.none
    else some .select
  | .template d =>
    if name = "template".toList then some (.template (d + 1))
    else if ambiguous then Option.none
    else some (.template d)
  | .frameset =>
    if ambiguous && name ≠ "noframes".toList then Option.none else some .frameset

def Guard.endTag (g : Guard) (name : Text) : Guard :=
  match g with
  | .select => if name = "select".toList then .none else .select
  | .template d =>
    if name = "template".toList then (if d ≤ 1 then .select else .template (d - 1))
    else .template d
  | g => g

/-! ## vocabularies -/

def enter (x : Context) (v : Vocabulary) : Context :=
  { x with outer := x.vocabulary :: x.outer, vocabulary := v }

def leave (x : Context) : Context :=
  match x.outer with
  | [] => { x with vocabulary := .html }
  | v :: vs => { x with outer := vs, vocabulary := v }

/-- the elements of HTML that end a drawing or a formula -/
def breakoutNames : List String :=
  ["b", "big", "blockquote", "body", "br", "center", "code", "dd", "div", "dl", "dt", "em",
   "embed", "h1", "h2", "h3", "h4", "h5", "h6", "head", "hr", "i", "img", "li", "listing", "menu",
   "meta", "nobr", "ol", "p", "pre", "ruby", "s", "small", "span", "strong", "strike", "sub",
   "sup", "table", "tt", "u", "ul", "var"]

def holdsHtml (v : Vocabulary) (name : Text) : Bool :=
  match v with
  | .html => false
  | .svg => isOneOf ["desc", "title", "foreignobject"] name
  | .math => isOneOf ["mi", "mo", "mn", "ms", "mtext"] name

/-- whether a tag has an attribute of this name, in any letter case, whose value passes a test -/
def hasAttribute (t : Tag) (name : String) (test : Text → Bool) : Bool :=
  t.attributes.any fun a => Text.lower a.name == name.toList && test (Text.lower a.value)

/-- whether an annotation of a formula holds HTML -/
def isHtmlAnnotation (t : Tag) : Bool :=
  Text.lower t.name == "annotation-xml".toList &&
    hasAttribute t "encoding" fun v =>
      v == "text/html".toList || v == "application/xhtml+xml".toList

/-- the context after a start tag in a drawing or a formula -/
def foreignStartTag (x : Context) (t : Tag) : Context :=
  let name := Text.lower t.name
  if isOneOf breakoutNames name then x.leave
  else if holdsHtml x.vocabulary name then (if t.selfClosing then x else x.enter .html)
  else if name = "font".toList then
    if ["color", "size", "face"].any (hasAttribute t · fun _ => true) then x.leave else x
  else if isHtmlAnnotation t && !t.selfClosing then x.enter .html
  else x

/-- the context after a start tag and how the text after it is read; nothing when the tag is
ambiguous -/
def startTag (x : Context) (t : Tag) : Option (Context × Content) := do
  let name := Text.lower t.name
  let x := { x with guard := ← Guard.startTag x.guard name }
  if name = "svg".toList then some (x.enter .svg, .markup)
  else if name = "math".toList then some (x.enter .math, .markup)
  else if x.vocabulary = .html then some (x, Content.ofName name)
  else some (x.foreignStartTag t, .markup)

def endsVocabulary (x : Context) (name : Text) : Bool :=
  match x.vocabulary, x.outer with
  | .svg, _ => name == "svg".toList
  | .math, _ => name == "math".toList
  | .html, v :: _ => holdsHtml v name || (v = .math && name == "annotation-xml".toList)
  | .html, [] => false

def endTag (x : Context) (t : Tag) : Context :=
  let name := Text.lower t.name
  let x := { x with guard := Guard.endTag x.guard name }
  if x.endsVocabulary name then x.leave else x

end Context

end MarkdownModule.Html

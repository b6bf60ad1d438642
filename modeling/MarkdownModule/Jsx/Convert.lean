import MarkdownModule.Html.ElementName
import MarkdownModule.Html.RawText
import MarkdownModule.Html.StartTag
import MarkdownModule.Html.TagEnd
import MarkdownModule.Jsx.Attribute
import MarkdownModule.Naming
import MarkdownModule.Script.Binding

/-!
# From HTML to JSX

`Jsx.ofHtml` reads a document piece by piece.  A tag of a component takes the name of its binding,
any other tag is written in lower case, and elements without content close themselves.  Comments and
declarations are dropped.  Braces and `>` in text are escaped; the text of `pre`, and the content of
scripts, style sheets and text areas, become string expressions, so that white space survives.
-/

namespace MarkdownModule.Jsx

/-! ## names -/

/-- the elements without content -/
def voidNames : List String :=
  ["area", "base", "br", "col", "embed", "hr", "img", "input", "link", "meta", "param", "source",
   "track", "wbr"]

/-- the elements whose text is written as string expressions -/
def verbatimNames : List String := ["pre"]

/-- the elements whose content is no markup -/
def rawNames : List String := ["script", "style", "textarea"]

def tagName (name : Text) : Text :=
  if Html.isCustom name then Script.bindingFor (Naming.pascal name) else Text.lower name

/-! ## text -/

def textChar (c : Char) : Text :=
  if c = '\x7b' then "\x7b\"\x7b\"\x7d".toList
  else if c = '\x7d' then "\x7b\"\x7d\"\x7d".toList
  else if c = '>' then "&gt;".toList
  else [c]

/-- text, in which JSX decodes the character references -/
def writeText (s : Text) : Text := s.flatMap textChar

/-- text as a string expression; nothing when there is none -/
def writeString (s : Text) : Text :=
  if s.isEmpty then [] else container (Script.stringLiteral s)

/-- text inside of `pre`, decoded, as a string expression -/
def writeVerbatim (s : Text) : Text := writeString (Html.decodeReferences s)

def strayLess : Text := "\x7b\"<\"\x7d".toList

/-! ## tags -/

/-- what stands between the name and the end of a start tag -/
structure TagBody where
  attributes : Text
  selfClosing : Bool

/-- the body of a start tag, without the blanks and slashes at its end -/
def TagBody.ofText (s : Text) : TagBody :=
  let t := Text.trimEnd s
  ⟨Text.dropEndWhile (· = '/') t, Text.endsWith '/' t⟩

/-- whether a start tag opens an element that has content -/
def opensElement (name : Text) (b : TagBody) : Bool :=
  !(b.selfClosing || Html.isListed voidNames name)

def writeStartTag (name : Text) (b : TagBody) : Text :=
  '<' :: tagName name ++ writeAttributes b.attributes ++
    (if opensElement name b then ['>'] else " />".toList)

/-- an end tag; elements without content have none -/
def writeEndTag (name : Text) : Text :=
  if Html.isListed voidNames name then [] else '<' :: '/' :: tagName name ++ ['>']

/-- the content of an element that holds no markup -/
def writeRaw (name content : Text) : Text :=
  if Text.lower name = "textarea".toList then writeVerbatim content else writeString content

/-! ## documents -/

/-- a piece of a document: what is written for it, how deep in `pre` the rest is, and the rest -/
structure Step where
  written : Text
  depth : Nat
  rest : Text

def textStep (depth : Nat) (s : Text) : Step :=
  let text := s.takeWhile (· ≠ '<')
  ⟨if 0 < depth then writeVerbatim text else writeText text, depth, s.dropWhile (· ≠ '<')⟩

/-- the step over an end tag, of which `inside` stands between `</` and `>` -/
def endTagStep (depth : Nat) (inside rest : Text) : Step :=
  let name := inside.takeWhile Html.isNameChar
  ⟨writeEndTag name, if Html.isListed verbatimNames name then depth - 1 else depth, rest⟩

/-- the step over a start tag, of which `inside` stands between `<` and `>` -/
def startTagStep (depth : Nat) (inside rest : Text) : Step :=
  let name := inside.takeWhile Html.isNameChar
  let body := TagBody.ofText (inside.dropWhile Html.isNameChar)
  let tag := writeStartTag name body
  if !opensElement name body then ⟨tag, depth, rest⟩
  else if Html.isListed rawNames name then
    let (content, after) := Html.cutRawText (Text.lower name) rest
    ⟨tag ++ writeRaw name content, depth, after⟩
  else ⟨tag, if Html.isListed verbatimNames name then depth + 1 else depth, rest⟩

def tagStep (depth : Nat) (inside rest : Text) : Step :=
  match inside with
  | '/' :: t => endTagStep depth t rest
  | t => startTagStep depth t rest

/-- the character at which the name of a tag would start, after the `<` -/
def nameStart? : Text → Option Char
  | '/' :: t => t.head?
  | t => t.head?

/-- the step over what begins with `<`, which is followed by `r` -/
def markupStep (depth : Nat) (r : Text) : Step :=
  if "!--".toList.isPrefixOf r then ⟨[], depth, Html.afterComment r⟩
  else if r.head? = some '!' || r.head? = some '?' then ⟨[], depth, Html.afterTag r⟩
  else if (nameStart? r).any Char.isAlpha then
    match Html.closeTag r with
    | none => ⟨writeText ('<' :: r), depth, []⟩
    | some (inside, rest) => tagStep depth inside rest
  else ⟨strayLess, depth, r⟩

/-- the step over the first piece of a document -/
def step (depth : Nat) (c : Char) (r : Text) : Step :=
  if c = '<' then markupStep depth r else textStep depth (c :: r)

theorem length_startTagStep_rest_le (depth : Nat) (inside rest : Text) :
    (startTagStep depth inside rest).rest.length ≤ rest.length := by
  have h := Html.length_cutRawText_snd_le (Text.lower (inside.takeWhile Html.isNameChar)) rest
  unfold startTagStep
  dsimp only
  split
  · exact Nat.le_refl _
  split
  · exact h
  · exact Nat.le_refl _

theorem length_tagStep_rest_le (depth : Nat) (inside rest : Text) :
    (tagStep depth inside rest).rest.length ≤ rest.length := by
  unfold tagStep
  split
  · exact Nat.le_refl _
  · exact length_startTagStep_rest_le depth _ rest

theorem length_markupStep_rest_le (depth : Nat) (r : Text) :
    (markupStep depth r).rest.length ≤ r.length := by
  unfold markupStep
  split
  · exact Html.length_afterComment_le r
  split
  · exact Html.length_afterTag_le r
  split
  · split
    · simp
    · next inside rest h =>
      have e := congrArg List.length (Html.append_of_closeTag h)
      have := length_tagStep_rest_le depth inside rest
      simp only [List.length_append, List.length_cons] at e
      omega
  · exact Nat.le_refl _

theorem length_step_rest_lt (depth : Nat) (c : Char) (r : Text) :
    (step depth c r).rest.length < (c :: r).length := by
  unfold step
  split
  · have := length_markupStep_rest_le depth r
    simp only [List.length_cons]; omega
  · next h =>
    have h' := (List.dropWhile_suffix (l := r) (· ≠ '<')).length_le
    simp only [textStep, List.dropWhile_cons, h, ne_eq, not_false_eq_true, decide_true, if_true,
      List.length_cons]
    simp only [ne_eq] at h'
    omega

/-- the document in JSX from a place inside `depth` elements whose text is verbatim -/
def ofHtmlAt (depth : Nat) : Text → Text
  | [] => []
  | c :: r => (step depth c r).written ++ ofHtmlAt (step depth c r).depth (step depth c r).rest
termination_by s => s.length
decreasing_by exact length_step_rest_lt depth c r

def ofHtml (html : Text) : Text := ofHtmlAt 0 html

end MarkdownModule.Jsx

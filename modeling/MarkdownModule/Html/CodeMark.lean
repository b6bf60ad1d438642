import MarkdownModule.Html.Context

/-!
# Marking code

`Html.markCode` gives every start tag of `code` in a document an attribute, so that a template
compiler leaves the content alone.  The rest of the document stays as it is.  A document with an
ambiguous tag is refused.
-/

namespace MarkdownModule.Html

/-- why a document cannot be marked -/
structure AmbiguousTag where
  name : Text

def AmbiguousTag.message (e : AmbiguousTag) : Text :=
  "the content of <".toList ++ e.name ++ "> cannot be told from its context".toList

/-! ## markup without tags -/

/-- the text after a comment, of which the opening `<!--` has been read -/
def skipComment (s : Text) : Text :=
  if ['>'].isPrefixOf s then s.drop 1
  else if "->".toList.isPrefixOf s then s.drop 2
  else
    let rest := (Text.cutAt (fun t => "-->".toList.isPrefixOf t || "--!>".toList.isPrefixOf t) s).2
    if "-->".toList.isPrefixOf rest then rest.drop 3 else rest.drop 4

/-- the text after the next `>` -/
def skipDeclaration (s : Text) : Text := (s.dropWhile (· ≠ '>')).drop 1

/-- the text after a comment, a declaration or a section of characters, of which the `<` and the `!`
have been read -/
def skipBang (v : Vocabulary) (s : Text) : Text :=
  if "--".toList.isPrefixOf s then skipComment (s.drop 2)
  else if v ≠ .html && "[CDATA[".toList.isPrefixOf s then
    Text.afterMark "]]>".toList (s.drop 7)
  else skipDeclaration s

/-- the text after a piece of markup that is no tag, of which the `<` has been read; nothing when the
`<` is text -/
def skipOther? (v : Vocabulary) : Text → Option Text
  | '!' :: s => some (skipBang v s)
  | '?' :: s => some (skipDeclaration s)
  | '/' :: c :: s => some (skipDeclaration (c :: s))
  | _ => none

/-! ## documents -/

/-- the start of a text, up to where `rest` begins at its end -/
def upTo (s rest : Text) : Text := s.take (s.length - rest.length)

/-- the document with the start tags of an element changed, from a place in a context on -/
def mapTags (element : Text) (change : Tag → Tag) :
    Nat → Context → Text → Except AmbiguousTag Text
  | 0, _, s => .ok s
  | _, _, [] => .ok []
  | fuel + 1, x, c :: r =>
    if c ≠ '<' then (mapTags element change fuel x r).map (c :: ·)
    else if r.head?.any Char.isAlpha then
      match Tag.read? r with
      | none => .ok (c :: r)
      | some (t, rest) =>
        match x.startTag t with
        | none => .error ⟨t.name⟩
        | some (x, kind) => do
          let (content, rest') := kind.cut (Text.lower t.name) rest
          let tag := if Text.lower t.name = element then (change t).write else c :: upTo r rest
          let more ← mapTags element change fuel x rest'
          .ok (tag ++ content ++ more)
    else if r.head? = some '/' && (r.drop 1).head?.any Char.isAlpha then
      match Tag.read? (r.drop 1) with
      | none => .ok (c :: r)
      | some (t, rest) =>
        (mapTags element change fuel (x.endTag t) rest).map (c :: upTo r rest ++ ·)
    else
      match skipOther? x.vocabulary r with
      | none => (mapTags element change fuel x r).map (c :: ·)
      | some rest => (mapTags element change fuel x rest).map (c :: upTo r rest ++ ·)

/-- the document with the attribute set in every start tag of `code` -/
def markCode (mark html : Text) : Except AmbiguousTag Text :=
  mapTags "code".toList (·.set mark []) (html.length + 1) {} html

end MarkdownModule.Html

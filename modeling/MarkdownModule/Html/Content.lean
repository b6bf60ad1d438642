import MarkdownModule.Html.Tag

/-!
# Content that is no markup

Some start tags change how the text after them is read.  `Html.Content.cut` separates the content of
such an element from the end tag that ends it.  A script may hold a comment, and in it the tags of
another script.
-/

namespace MarkdownModule.Html

/-- how the text after a start tag is read -/
inductive Content where
  /-- as markup -/
  | markup
  /-- as raw text, up to the end tag of the element -/
  | raw
  /-- as a script -/
  | script
  /-- as raw text, up to the end of the document -/
  | plain
deriving DecidableEq

namespace Content

/-- the elements that hold raw text -/
def rawNames : List String :=
  ["textarea", "title", "style", "iframe", "xmp", "noembed", "noframes", "noscript"]

/-- how the text after a start tag of this name, in lower case, is read -/
def ofName (name : Text) : Content :=
  if name = "script".toList then .script
  else if name = "plaintext".toList then .plain
  else if rawNames.contains (String.ofList name) then .raw
  else .markup

/-- whether the text begins with a word, in any letter case, that a tag's name could be -/
def startsWithName (word s : Text) : Bool :=
  Text.lower (s.take word.length) == word && (s.drop word.length).head?.any Tag.endsName

/-- whether the end tag of the element begins the text -/
def startsWithEndTag (name : Text) : Text → Bool
  | '<' :: '/' :: r => startsWithName name r
  | _ => false

/-! ## scripts -/

/-- where a reader of a script stands -/
inductive ScriptPlace where
  /-- outside of comments -/
  | code
  /-- with this many characters left of the mark that opens a comment -/
  | opening (left : Nat)
  /-- in a comment, after this many hyphens, at most two -/
  | comment (hyphens : Nat)
  /-- in a script in a comment, after this many hyphens, at most two -/
  | inner (hyphens : Nat)

def scriptName : Text := "script".toList

/-- the place after a character, and whether the script ends before it -/
def ScriptPlace.next (p : ScriptPlace) (c : Char) (r : Text) : Option ScriptPlace :=
  match p with
  | .code =>
    if startsWithEndTag scriptName (c :: r) then none
    else if "<!--".toList.isPrefixOf (c :: r) then some (.opening 3)
    else some .code
  | .opening 0 => some (.comment 2)
  | .opening (n + 1) => some (if n = 0 then .comment 2 else .opening n)
  | .comment h =>
    if startsWithEndTag scriptName (c :: r) then none
    else if c = '-' then some (.comment (min 2 (h + 1)))
    else if c = '>' && h = 2 then some .code
    else if c = '<' && startsWithName scriptName r then some (.inner 0)
    else some (.comment 0)
  | .inner h =>
    if c = '-' then some (.inner (min 2 (h + 1)))
    else if c = '>' && h = 2 then some .code
    else if startsWithEndTag scriptName (c :: r) then some (.comment 0)
    else some (.inner 0)

/-- a script, and the text from its end tag on -/
def cutScript (p : ScriptPlace) : Text → Text × Text
  | [] => ([], [])
  | c :: r =>
    match p.next c r with
    | none => ([], c :: r)
    | some q =>
      let t := cutScript q r
      (c :: t.1, t.2)

/-- the content of an element, and the text from its end tag on -/
def cut (k : Content) (name s : Text) : Text × Text :=
  match k with
  | .markup => ([], s)
  | .raw => Text.cutAt (startsWithEndTag name) s
  | .script => cutScript .code s
  | .plain => (s, [])

end Content

end MarkdownModule.Html

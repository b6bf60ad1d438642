import MarkdownModule.Jsx.Convert

/-!
# Trees of nodes

A well-formed document is a tree of text, comments and elements, written down as HTML.  Its
translation is the same tree written down as JSX.

* `Jsx.Forest`             a row of nodes
* `Jsx.Forest.html`        the row as HTML
* `Jsx.Forest.jsx`         the row as JSX, by recursion on the tree
* `Jsx.Forest.WellFormed`  what makes a row readable: text without `<`, comments and raw content that
                           do not end themselves, and elements that have the content they may have
-/

namespace MarkdownModule.Jsx

/-! ## tags -/

/-- the name of an element: an ASCII letter, and then letters, digits and `-_.:` -/
structure TagName where
  text : Text
  head : text.head?.any Char.isAlpha = true
  chars : ∀ c ∈ text, Html.isNameChar c = true

inductive Quote where
  | double
  | single

def Quote.char : Quote → Char
  | double => '"'
  | single => '\''

/-- a value in quotes, which does not hold the quote itself -/
structure QuotedValue where
  quote : Quote
  text : Text
  free : quote.char ∉ text

def startsAttribute (c : Char) : Bool := c.isAlpha || c = '_' || c = ':'

structure TagAttribute where
  space : Text
  space_ne : space ≠ []
  space_chars : ∀ c ∈ space, isSpace c = true
  name : Text
  head : name.head?.any startsAttribute = true
  chars : ∀ c ∈ name, Html.isNameChar c = true
  value : Option QuotedValue

/-- a start tag: its name, its attributes and the white space behind them -/
structure StartTag where
  name : TagName
  attributes : List TagAttribute
  space : Text
  space_chars : ∀ c ∈ space, isSpace c = true

/-! ## rows of nodes -/

/-- a row of nodes -/
inductive Forest where
  | nil
  | text (s : Text) (rest : Forest)
  | comment (content : Text) (rest : Forest)
  /-- an element without content, whose tag may end in a slash, and the nodes behind it -/
  | closed (tag : StartTag) (slash : Bool) (rest : Forest)
  /-- an element with nodes in it, and the nodes behind it -/
  | element (tag : StartTag) (children rest : Forest)
  /-- an element whose content is no markup, and the nodes behind it -/
  | raw (tag : StartTag) (content : Text) (rest : Forest)

/-! ## HTML -/

def QuotedValue.source (v : QuotedValue) : Text := v.quote.char :: v.text ++ [v.quote.char]

/-- a value behind its `=`, if there is one -/
def valueSource : Option QuotedValue → Text
  | none => []
  | some v => '=' :: v.source

def TagAttribute.source (a : TagAttribute) : Text := a.space ++ a.name ++ valueSource a.value

namespace StartTag

def body (t : StartTag) (slash : Bool) : Text :=
  t.attributes.flatMap TagAttribute.source ++ t.space ++ if slash then ['/'] else []

def inside (t : StartTag) (slash : Bool) : Text := t.name.text ++ t.body slash

def source (t : StartTag) (slash : Bool) : Text := '<' :: t.inside slash ++ ['>']

end StartTag

def TagName.endTag (n : TagName) : Text := '<' :: '/' :: n.text ++ ['>']

def commentSource (content : Text) : Text := "<!--".toList ++ content ++ "-->".toList

theorem commentSource_append (content r : Text) :
    commentSource content ++ r = '<' :: ("!--".toList ++ content ++ "-->".toList ++ r) := by
  show "<!--".toList ++ content ++ "-->".toList ++ r = _
  simp

def Forest.html : Forest → Text
  | nil => []
  | text s rest => s ++ rest.html
  | comment content rest => commentSource content ++ rest.html
  | closed tag slash rest => tag.source slash ++ rest.html
  | element tag children rest =>
    tag.source false ++ children.html ++ tag.name.endTag ++ rest.html
  | raw tag content rest => tag.source false ++ content ++ tag.name.endTag ++ rest.html

/-! ## JSX -/

/-- an attribute as the conversion takes it -/
def TagAttribute.read (a : TagAttribute) : Html.Attribute := ⟨a.name, a.value.map QuotedValue.text⟩

/-- a start tag in JSX without its end -/
def StartTag.jsx (t : StartTag) : Text :=
  '<' :: tagName t.name.text ++ t.attributes.flatMap fun a => writeAttribute a.read

def StartTag.jsxClosed (t : StartTag) : Text := t.jsx ++ " />".toList

def StartTag.jsxEnd (t : StartTag) : Text := '<' :: '/' :: tagName t.name.text ++ ['>']

/-- the nodes as JSX, inside of `pre` or outside of it -/
def Forest.jsx (verbatim : Bool) : Forest → Text
  | nil => []
  | text s rest => (if verbatim then writeVerbatim s else writeText s) ++ rest.jsx verbatim
  | comment _ rest => rest.jsx verbatim
  | closed tag _ rest => tag.jsxClosed ++ rest.jsx verbatim
  | element tag children rest =>
    tag.jsx ++ ['>'] ++ children.jsx (verbatim || Html.isListed verbatimNames tag.name.text)
      ++ tag.jsxEnd ++ rest.jsx verbatim
  | raw tag content rest =>
    tag.jsx ++ ['>'] ++ writeRaw tag.name.text content ++ tag.jsxEnd ++ rest.jsx verbatim

/-! ## well-formed rows -/

namespace Forest

def beginsWithText : Forest → Bool
  | text _ _ => true
  | _ => false

/-- whether the row can be read back -/
def WellFormed : Forest → Prop
  | nil => True
  | text s rest => (s ≠ [] ∧ '<' ∉ s ∧ rest.beginsWithText = false) ∧ rest.WellFormed
  | comment content rest => ¬ "-->".toList <:+: content ∧ rest.WellFormed
  | closed tag slash rest =>
    (slash = true ∨ Html.isListed voidNames tag.name.text = true) ∧ rest.WellFormed
  | element tag children rest =>
    (Html.isListed voidNames tag.name.text = false ∧ Html.isListed rawNames tag.name.text = false) ∧
      children.WellFormed ∧ rest.WellFormed
  | raw tag content rest =>
    (Html.isListed rawNames tag.name.text = true ∧
      ¬ ('<' :: '/' :: Text.lower tag.name.text) <:+: Text.lower content) ∧ rest.WellFormed

instance decidableWellFormed : (f : Forest) → Decidable f.WellFormed
  | nil => .isTrue trivial
  | text s rest =>
    have := decidableWellFormed rest
    inferInstanceAs (Decidable ((s ≠ [] ∧ '<' ∉ s ∧ rest.beginsWithText = false) ∧ rest.WellFormed))
  | comment content rest =>
    have := decidableWellFormed rest
    inferInstanceAs (Decidable (¬ "-->".toList <:+: content ∧ rest.WellFormed))
  | closed tag slash rest =>
    have := decidableWellFormed rest
    inferInstanceAs (Decidable
      ((slash = true ∨ Html.isListed voidNames tag.name.text = true) ∧ rest.WellFormed))
  | element tag children rest =>
    have := decidableWellFormed children
    have := decidableWellFormed rest
    inferInstanceAs (Decidable
      ((Html.isListed voidNames tag.name.text = false ∧
          Html.isListed rawNames tag.name.text = false) ∧ children.WellFormed ∧ rest.WellFormed))
  | raw tag content rest =>
    have := decidableWellFormed rest
    inferInstanceAs (Decidable
      ((Html.isListed rawNames tag.name.text = true ∧
          ¬ ('<' :: '/' :: Text.lower tag.name.text) <:+: Text.lower content) ∧ rest.WellFormed))

end Forest

end MarkdownModule.Jsx

import MarkdownModule.Text.Basic

/-!
# Element names

A tag names a component when its name has a hyphen, or when it is written like `MyWidget` and is
no name of the standard.  Some hyphenated names are reserved for drawings and formulas.
-/

namespace MarkdownModule.Html

/-- the characters of a tag name after its first letter -/
def isNameChar (c : Char) : Bool := c.isAlphanum || c = '-' || c = '_' || c = '.' || c = ':'

def standardNames : List String :=
  ["a", "abbr", "address", "area", "article", "aside", "audio", "b", "base", "bdi", "bdo",
   "blockquote", "body", "br", "button", "canvas", "caption", "cite", "code", "col", "colgroup",
   "data", "datalist", "dd", "del", "details", "dfn", "dialog", "div", "dl", "dt", "em", "embed",
   "fieldset", "figcaption", "figure", "footer", "form", "h1", "h2", "h3", "h4", "h5", "h6",
   "head", "header", "hgroup", "hr", "html", "i", "iframe", "img", "input", "ins", "kbd", "label",
   "legend", "li", "link", "main", "map", "mark", "math", "menu", "meta", "meter", "nav",
   "noscript", "object", "ol", "optgroup", "option", "output", "p", "param", "picture", "pre",
   "progress", "q", "rp", "rt", "ruby", "s", "samp", "script", "search", "section", "select",
   "slot", "small", "source", "span", "strong", "style", "sub", "summary", "sup", "svg", "table",
   "tbody", "td", "template", "textarea", "tfoot", "th", "thead", "time", "title", "tr", "track",
   "u", "ul", "var", "video", "wbr"]

/-- the hyphenated names that are never components -/
def reservedNames : List String :=
  ["annotation-xml", "color-profile", "font-face", "font-face-src", "font-face-uri",
   "font-face-format", "font-face-name", "missing-glyph"]

/-- whether a name is in the table, in any letter case -/
def isListed (table : List String) (name : Text) : Bool :=
  table.contains (String.ofList (Text.lower name))

def isStandard (name : Text) : Bool := isListed standardNames name

/-- whether a tag of this name stands for a component -/
def isCustom (name : Text) : Bool :=
  if name.contains '-' then !isListed reservedNames name
  else name.head?.any Char.isUpper && name.any Char.isLower && !isStandard name

end MarkdownModule.Html

import MarkdownModule.Html.Attribute
import MarkdownModule.Html.Reference
import MarkdownModule.Jsx.Style

/-!
# Attributes in JSX

An attribute takes the name of its property.  A value stays in its double quotes with its character
references; a value that holds a double quote becomes a string expression, and a style an object.
-/

namespace MarkdownModule.Jsx

/-- the attributes whose property has another name -/
def propertyNames : List (String × String) :=
  [("accept-charset", "acceptCharset"), ("accesskey", "accessKey"),
   ("allowfullscreen", "allowFullScreen"), ("autocomplete", "autoComplete"),
   ("autofocus", "autoFocus"), ("autoplay", "autoPlay"), ("cellpadding", "cellPadding"),
   ("cellspacing", "cellSpacing"), ("charset", "charSet"), ("class", "className"),
   ("colspan", "colSpan"), ("contenteditable", "contentEditable"),
   ("crossorigin", "crossOrigin"), ("datetime", "dateTime"), ("enctype", "encType"),
   ("for", "htmlFor"), ("frameborder", "frameBorder"), ("http-equiv", "httpEquiv"),
   ("maxlength", "maxLength"), ("minlength", "minLength"), ("novalidate", "noValidate"),
   ("readonly", "readOnly"), ("referrerpolicy", "referrerPolicy"), ("rowspan", "rowSpan"),
   ("spellcheck", "spellCheck"), ("srcset", "srcSet"), ("tabindex", "tabIndex"),
   ("usemap", "useMap")]

/-- the name of the property that an attribute sets -/
def attributeName (name : Text) : Text :=
  let small := Text.lower name
  if "data-".toList.isPrefixOf small || "aria-".toList.isPrefixOf small then small
  else ((propertyNames.lookup (String.ofList small)).map String.toList).getD small

/-- an expression container with an expression in it -/
def container (expression : Text) : Text := '\x7b' :: expression ++ ['\x7d']

/-- an attribute, with the space before it -/
def writeAttribute (a : Html.Attribute) : Text :=
  let name := attributeName a.name
  match a.value with
  | none => ' ' :: name
  | some raw =>
    if name = "style".toList then
      ' ' :: name ++ '=' :: container (styleObject (Html.decodeReferences raw))
    else if raw.contains '"' then
      ' ' :: name ++ '=' :: container (Script.stringLiteral (Html.decodeReferences raw))
    else ' ' :: name ++ '=' :: '"' :: raw ++ ['"']

def writeAttributes (s : Text) : Text := (Html.readAttributes s).flatMap writeAttribute

end MarkdownModule.Jsx

import MarkdownModule.Script.Literal
import MarkdownModule.Text.Blank

/-!
# Style objects

In JSX the value of `style` is an object.  `Jsx.styleObject` turns a list of declarations, written
with colons and semicolons, into that object.
-/

namespace MarkdownModule.Jsx

/-- a property name without hyphens: the letter after a hyphen is a capital, all others are small -/
def camelCase (afterHyphen : Bool) : Text → Text
  | [] => []
  | c :: r =>
    if c = '-' then camelCase true r
    else (if afterHyphen then c.toUpper else c.toLower) :: camelCase false r

/-- the key of a property; a custom property keeps its name -/
def stylePropertyName : Text → Text
  | '-' :: '-' :: r => '-' :: '-' :: r
  | s => camelCase false s

/-- a declaration cut at its first colon, if both parts hold more than blanks -/
def readDeclaration? (s : Text) : Option (Text × Text) :=
  let (property, rest) := Text.cutAt (·.head? == some ':') s
  match rest with
  | [] => none
  | _ :: value =>
    if (Text.trim property).isEmpty || (Text.trim value).isEmpty then none
    else some (Text.trim property, Text.trim value)

def readDeclarations (css : Text) : List (Text × Text) :=
  (Text.splitOn ';' css).filterMap readDeclaration?

def styleEntry (d : Text × Text) : Text :=
  Script.stringLiteral (stylePropertyName d.1) ++ ": ".toList ++ Script.stringLiteral d.2

def styleObject (css : Text) : Text :=
  match readDeclarations css with
  | [] => "\x7b\x7d".toList
  | ds => "\x7b ".toList ++ ", ".toList.intercalate (ds.map styleEntry) ++ " \x7d".toList

end MarkdownModule.Jsx

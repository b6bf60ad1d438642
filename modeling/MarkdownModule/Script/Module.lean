import MarkdownModule.Json.Value
import MarkdownModule.Script.Literal
import MarkdownModule.Text.Blank

/-!
# Modules under construction

A `Script.Module` is a list of import statements, a list of further statements and a list of named
exports.  Two import statements are the same when they agree up to white space outside quotes
(`Script.importKey`), and the same import is kept once.

* `Script.Module.addImport`  reports whether the statement is new
* `Script.Module.export`     gives a name that is exported already a new expression, in its place
* `Script.Module.code`       imports, statements and exports, one line each
-/

namespace MarkdownModule.Script

/-! ## import keys -/

/-- where a reader of a statement stands -/
inductive KeyState where
  /-- outside of quotes -/
  | plain
  /-- between quotes of this kind -/
  | quoted (q : Char)
  /-- after a backslash between quotes of this kind -/
  | escaped (q : Char)

def opensString (c : Char) : Bool := c = '\'' || c = '"' || c = '\x60'

/-- a statement without its white space outside quotes, read from a state on -/
def importKeyFrom : KeyState → Text → Text
  | _, [] => []
  | .escaped q, c :: r => c :: importKeyFrom (.quoted q) r
  | .quoted q, c :: r =>
    c :: importKeyFrom (if c = '\\' then .escaped q else if c = q then .plain else .quoted q) r
  | .plain, c :: r =>
    if opensString c then c :: importKeyFrom (.quoted c) r
    else if isBlank c then importKeyFrom .plain r
    else c :: importKeyFrom .plain r

/-- a statement without its white space outside quotes -/
def importKey (statement : Text) : Text := importKeyFrom .plain statement

/-! ## modules -/

structure Module where
  /-- the import statements, in the order in which they were added -/
  imports : List Text := []
  statements : List Text := []
  /-- the exported names, each with its expression -/
  exports : List (Text × Text) := []

namespace Module

def empty : Module := {}

/-- whether an import statement is there, up to white space outside quotes -/
def hasImport (m : Module) (statement : Text) : Bool :=
  m.imports.any (importKey · == importKey statement)

/-- the module with an import statement, and whether the statement is new -/
def addImport (m : Module) (statement : Text) : Module × Bool :=
  if m.hasImport statement then (m, false)
  else ({ m with imports := m.imports ++ [statement] }, true)

def defaultImport (binding path : Text) : Text :=
  "import ".toList ++ binding ++ " from ".toList ++ stringLiteral path ++ [';']

def namedImport (name binding path : Text) : Text :=
  let specifier := if name = binding then name else name ++ " as ".toList ++ binding
  "import \x7b ".toList ++ specifier ++ " \x7d from ".toList ++ stringLiteral path ++ [';']

def addStatement (m : Module) (statement : Text) : Module :=
  { m with statements := m.statements ++ [statement] }

/-- the exports after one more is written; a name that is there keeps its place -/
def putExport (name expression : Text) : List (Text × Text) → List (Text × Text)
  | [] => [(name, expression)]
  | (n, e) :: rest =>
    if n = name then (n, expression) :: rest else (n, e) :: putExport name expression rest

def addExport (m : Module) (name expression : Text) : Module :=
  { m with exports := putExport name expression m.exports }

def exportLine (e : Text × Text) : Text :=
  "export const ".toList ++ e.1 ++ " = ".toList ++ e.2 ++ [';']

def lines (m : Module) : List Text := m.imports ++ m.statements ++ m.exports.map exportLine

/-- the text of the module: every line ends in a line feed -/
def code (m : Module) : Text := m.lines.flatMap (· ++ ['\n'])

def exportNames (m : Module) : List Text := m.exports.map Prod.fst

/-! ## the exports of a document -/

def addAttributes (m : Module) (v : Json.Value) : Module :=
  m.addExport "attributes".toList (valueLiteral v)

def addHtml (m : Module) (html : Text) : Module := m.addExport "html".toList (stringLiteral html)

def addBody (m : Module) (body : Text) : Module := m.addExport "body".toList (stringLiteral body)

def addMeta (m : Module) (path : Text) : Module :=
  m.addExport "meta".toList
    ("\x7b \"resourcePath\": ".toList ++ stringLiteral path ++ " \x7d".toList)

end Module

end MarkdownModule.Script

import MarkdownModule.Text.Blank

/-!
# Output modes

A mode is one thing that a module can export.  A caller names modes by tokens, and a `ModeSet` is
what the tokens name together.

* `Mode.ofToken?`      the mode that a token names, blanks around it and letter case ignored
* `ModeSet.resolve`    the modes that a list of tokens names, or `html` when it names none
-/

namespace MarkdownModule

inductive Mode where
  /-- the rendered document, exported as `html` -/
  | html
  /-- the text after the frontmatter, exported as `body` -/
  | body
  /-- facts about the file, exported as `meta` -/
  | fileMeta
  /-- a Vue component, exported as `vue` -/
  | vue
  /-- a React component, exported as `react` -/
  | react
deriving DecidableEq

namespace Mode

/-- every mode, in the order in which outputs are emitted -/
def all : List Mode := [.html, .body, .fileMeta, .vue, .react]

def token : Mode → Text
  | .html => "html".toList
  | .body => "body".toList
  | .fileMeta => "meta".toList
  | .vue => "vue-component".toList
  | .react => "react-component".toList

def label : Mode → Text
  | .html => "Html".toList
  | .body => "Body".toList
  | .fileMeta => "Meta".toList
  | .vue => "Vue".toList
  | .react => "React".toList

def isFramework : Mode → Bool
  | .vue | .react => true
  | .html | .body | .fileMeta => false

def ofToken? (t : Text) : Option Mode :=
  all.find? fun m => Text.sameIgnoringCase m.token (Text.trim t)

end Mode

structure UnknownMode where
  /-- the token without the blanks around it -/
  token : Text

def UnknownMode.message (e : UnknownMode) : Text :=
  "unknown mode `".toList ++ e.token ++ "`".toList

def Mode.parse (t : Text) : Except UnknownMode Mode :=
  match Mode.ofToken? t with
  | some m => .ok m
  | none => .error ⟨Text.trim t⟩

/-! ## sets -/

structure ModeSet where
  html : Bool := false
  body : Bool := false
  fileMeta : Bool := false
  vue : Bool := false
  react : Bool := false
deriving DecidableEq

namespace ModeSet

def empty : ModeSet := {}

/-- the set of a caller who names no mode -/
def standard : ModeSet := { html := true }

def contains (s : ModeSet) : Mode → Bool
  | .html => s.html
  | .body => s.body
  | .fileMeta => s.fileMeta
  | .vue => s.vue
  | .react => s.react

def insert (s : ModeSet) : Mode → ModeSet
  | .html => { s with html := true }
  | .body => { s with body := true }
  | .fileMeta => { s with fileMeta := true }
  | .vue => { s with vue := true }
  | .react => { s with react := true }

theorem contains_insert (s : ModeSet) (m n : Mode) :
    (s.insert m).contains n = (decide (n = m) || s.contains n) := by
  cases m <;> cases n <;> simp [insert, contains]

def ofList (ms : List Mode) : ModeSet := ms.foldl insert empty

/-- the members, in the order in which outputs are emitted -/
def toList (s : ModeSet) : List Mode := Mode.all.filter s.contains

def isEmpty (s : ModeSet) : Bool := s == empty

def frameworks (s : ModeSet) : List Mode := s.toList.filter Mode.isFramework

def needsHtml (s : ModeSet) : Bool := s.html || s.vue || s.react

/-- the modes that the tokens name; `html` alone when they name none or there are none -/
def resolve (tokens : Option (List Text)) : ModeSet :=
  let s := ofList ((tokens.getD []).filterMap Mode.ofToken?)
  if s.isEmpty then standard else s

/-- the members' labels in braces -/
def describe (s : ModeSet) : Text :=
  "\x7b".toList ++ ", ".toList.intercalate (s.toList.map Mode.label) ++ "\x7d".toList

end ModeSet

end MarkdownModule

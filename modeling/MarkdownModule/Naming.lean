import MarkdownModule.Text.Basic

/-!
# Spellings of a component name

A name is read as a list of words of ASCII letters and digits.  A word ends at any other
character, before a capital that follows a small letter or a digit, and before the last capital
of a run of capitals that a small letter follows.

* `Naming.words`   the words of a name, in lower case
* `Naming.kebab`   the words joined by hyphens: `my-widget`
* `Naming.pascal`  the words written together, each with a capital: `MyWidget`
-/

namespace MarkdownModule.Naming

/-! ## words -/

/-- whether a word starts at the capital `c`, given the characters on both sides of it -/
def startsWord (before : Option Char) (c : Char) (after : Option Char) : Bool :=
  c.isUpper &&
    (before.any (fun b => b.isLower || b.isDigit)
      || (before.any Char.isUpper && after.any Char.isLower))

/-- the rest of the word that goes on after `before`, and the words after it; some may be empty -/
def split (before : Option Char) : Text → Text × List Text
  | [] => ([], [])
  | c :: r =>
    let (w, ws) := split (some c) r
    if !c.isAlphanum then ([], w :: ws)
    else if startsWord before c r.head? then ([], (c.toLower :: w) :: ws)
    else (c.toLower :: w, ws)

/-- the words of a name, in lower case -/
def words (name : Text) : List Text :=
  let (w, ws) := split none name
  (w :: ws).filter (!·.isEmpty)

/-! ## spellings -/

def capitalize : Text → Text
  | [] => []
  | c :: r => c.toUpper :: r

/-- the words in lower case, joined by hyphens -/
def kebab (name : Text) : Text := ['-'].intercalate (words name)

/-- the words written together, each with its first letter in upper case -/
def pascal (name : Text) : Text := (words name).flatMap capitalize

end MarkdownModule.Naming

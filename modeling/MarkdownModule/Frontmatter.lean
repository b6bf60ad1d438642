import MarkdownModule.Error
import MarkdownModule.Text.Blank
import MarkdownModule.Yaml.Load

/-!
# Frontmatter

A document may begin with a block of YAML between two fence lines.  `Frontmatter.cut` finds the
block by its lines alone, and `Frontmatter.extract` reads it.

* `Frontmatter.Cut`      what the lines of a document say: no block, an open one, or a closed one
* `Frontmatter.extract`  the value of the block and the rest of the document, unchanged
-/

namespace MarkdownModule.Frontmatter

/-! ## lines -/

def byteOrderMark : Char := '\ufeff'

/-- a line without its line feed, and the text after the line feed -/
def cutLine (s : Text) : Text × Text := (s.takeWhile (· ≠ '\n'), (s.dropWhile (· ≠ '\n')).drop 1)

theorem length_cutLine_snd_lt (c : Char) (s : Text) :
    (cutLine (c :: s)).2.length < (c :: s).length := by
  have h := (List.dropWhile_suffix (l := c :: s) (· ≠ '\n')).length_le
  have h' := (List.dropWhile_suffix (l := s) (· ≠ '\n')).length_le
  simp only [cutLine, List.length_drop, List.length_cons] at h ⊢
  omega

/-- a line without what may stand after a fence -/
def fenceText (line : Text) : Text :=
  Text.dropEndWhile (fun c => c = '\r' || c = ' ' || c = '\t') line

def isOpeningFence (line : Text) : Bool := fenceText line == "---".toList

def isClosingFence (line : Text) : Bool :=
  fenceText line == "---".toList || fenceText line == "...".toList

/-! ## blocks -/

/-- what the lines of a document say about its frontmatter -/
inductive Cut where
  /-- there is none -/
  | none
  /-- a block is opened and not closed -/
  | unterminated
  /-- a block, as it stands between its fence lines, and the text after the closing one -/
  | block (raw body : Text)
deriving DecidableEq

/-- the lines up to a closing fence, and the text after it, if there is one -/
def cutBlock : Text → Cut
  | [] => .unterminated
  | c :: r =>
    if isClosingFence (cutLine (c :: r)).1 then .block [] (cutLine (c :: r)).2
    else
      match cutBlock (cutLine (c :: r)).2 with
      | .block raw body => .block ((cutLine (c :: r)).1 ++ '\n' :: raw) body
      | other => other
termination_by s => s.length
decreasing_by exact length_cutLine_snd_lt c r

def dropMark : Text → Text
  | c :: r => if c = byteOrderMark then r else c :: r
  | [] => []

def cut (source : Text) : Cut :=
  match dropMark source with
  | [] => .none
  | s => if isOpeningFence (cutLine s).1 then cutBlock (cutLine s).2 else .none

/-! ## values -/

/-- the frontmatter of a document and what follows it -/
structure Extraction where
  /-- the frontmatter, an object -/
  attributes : Json.Value
  body : Text

def Extraction.isEmpty (e : Extraction) : Bool := e.attributes.members.isEmpty

/-- the value of a block: an object, the empty one when the block says nothing -/
def readBlock (block : Text) : Except FrontmatterError Json.Value :=
  if Text.allBlank block then .ok .emptyObject
  else
    match Yaml.load block with
    | .error cause => .error (.malformed cause.message)
    | .ok .null => .ok .emptyObject
    | .ok (.object ms) => .ok (.object ms)
    | .ok _ => .error .notMapping

/-- a block without the line endings at its end -/
def blockText (raw : Text) : Text := Text.dropEndWhile (fun c => c = '\r' || c = '\n') raw

def extract (source : Text) : Except FrontmatterError Extraction :=
  match cut source with
  | .none => .ok ⟨.emptyObject, source⟩
  | .unterminated => .error .unterminated
  | .block raw body => (readBlock (blockText raw)).map fun v => ⟨v, body⟩

end MarkdownModule.Frontmatter

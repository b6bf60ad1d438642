import MarkdownModule.Markdown.Escape

/-!
# Raw HTML

A tag, a comment, an instruction, a declaration or a section of character data is kept as it is
written.

* `RawTag.attributesEnd?`  what follows the attributes of a tag
* `RawTag.end?`            what follows raw HTML in a text, after its `<`
* `RawTag.shown`           raw HTML as it is written, with its lines shifted to the left
-/

namespace MarkdownModule.Markdown.RawTag

/-! ## attributes -/

def startsAttribute (c : Char) : Bool := c.isAlpha || c = '_' || c = ':'

def inAttribute (c : Char) : Bool := startsAttribute c || c.isDigit || c = '.' || c = '-'

def inName (c : Char) : Bool := c.isAlphanum || c = '-'

def inBareValue (c : Char) : Bool := !(isWide c || "\"'/<=>\x60".toList.contains c)

/-- where a tag stands -/
inductive Setting where
  | inText
  | ownLine
deriving DecidableEq

/-- what follows a value between quotes, after the opening one -/
def quotedEnd? (q : Char) (s : Text) : Option Text :=
  match s.dropWhile (· ≠ q) with
  | [] => none
  | _ :: [] => none
  | _ :: c :: r => if isWide c || c = '/' || c = '>' then some (c :: r) else none

/-- what follows a value without quotes; in a text no mark of an attribute may follow it directly -/
def bareEnd? (setting : Setting) (s : Text) : Option Text :=
  match s.dropWhile inBareValue with
  | [] => none
  | c :: r =>
    if setting = .inText && "\"'<=\x60".toList.contains c then none else some (c :: r)

/-- what follows the attributes of a tag and the bracket that closes it; each attribute, and each
value, takes one unit of fuel.  `assign` tells whether an equals sign may stand here: on its own
line a tag may also have one after a value without quotes -/
def attributesEnd? (setting : Setting) : Nat → Bool → Text → Option Text
  | 0, _, _ => none
  | fuel + 1, assign, s =>
    match s.dropWhile isWide with
    | [] => none
    | '>' :: r => some r
    | '/' :: '>' :: r => some r
    | '=' :: r =>
      if assign then
        match r.dropWhile isWide with
        | [] => none
        | c :: v =>
          if c = '"' || c = '\'' then
            (quotedEnd? c v).bind (attributesEnd? setting fuel false)
          else if "<=>\x60".toList.contains c then none
          else (bareEnd? setting (c :: v)).bind (attributesEnd? setting fuel (setting = .ownLine))
      else none
    | c :: r =>
      if startsAttribute c then attributesEnd? setting fuel true (r.dropWhile inAttribute)
      else none

def startTagEnd? (setting : Setting) (s : Text) : Option Text :=
  match s with
  | [] => none
  | c :: _ =>
    if c.isAlpha then
      match s.dropWhile inName with
      | [] => none
      | d :: r =>
        if isWide d || d = '/' || d = '>' then
          attributesEnd? setting (s.length + 1) false (d :: r)
        else none
    else none

def endTagEnd? (s : Text) : Option Text :=
  match s with
  | [] => none
  | c :: _ =>
    if c.isAlpha then
      match (s.dropWhile inName).dropWhile isWide with
      | '>' :: r => some r
      | _ => none
    else none

/-! ## other markup -/

def afterMark? (mark s : Text) : Option Text :=
  match (Text.cutAt (mark.isPrefixOf ·) s).2 with
  | [] => none
  | c :: r => some ((c :: r).drop mark.length)

/-- how a section of character data begins, after its `<!` -/
def dataMark : Text := "[CDATA[".toList

/-- what follows a comment, a section of character data or a declaration, after its `<!` -/
def declarationEnd? (s : Text) : Option Text :=
  match s with
  | '-' :: '-' :: _ => afterMark? "-->".toList s
  | c :: _ =>
    if dataMark.isPrefixOf s then afterMark? "]]>".toList (s.drop dataMark.length)
    else if c.isAlpha then afterMark? ['>'] s
    else none
  | [] => none

/-- what follows raw HTML in a text, after its `<` -/
def end? : Text → Option Text
  | '!' :: r => declarationEnd? r
  | '?' :: r => afterMark? "?>".toList r
  | '/' :: r => endTagEnd? r
  | s => startTagEnd? .inText s

/-! ## form -/

def dropSpaces : Nat → Text → Text
  | n + 1, ' ' :: r => dropSpaces n r
  | _, s => s

/-- raw HTML as it is written: each of its lines after the first loses up to three spaces -/
def shown (s : Text) : Text :=
  match Text.splitOn '\n' s with
  | [] => []
  | l :: ls => l ++ ls.flatMap fun m => '\n' :: dropSpaces 3 m

end MarkdownModule.Markdown.RawTag

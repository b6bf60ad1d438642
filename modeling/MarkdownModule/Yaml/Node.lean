import MarkdownModule.Yaml.Error
import MarkdownModule.Yaml.Token

/-!
# Nodes of YAML

`Yaml.Node.ofTokens` reads the tokens of a text as one node.  An anchor gives a node a name, and an
alias stands for a node that was named before.

A node is empty when nothing is written for it; an empty node is a plain scalar without text.
-/

namespace MarkdownModule.Yaml

/-- what is said about a node in front of it -/
structure Properties where
  anchor : Option Text := none
  /-- the tag in full -/
  tag : Option Text := none

def Properties.isEmpty (p : Properties) : Bool := p.anchor.isNone && p.tag.isNone

inductive Node where
  | alias (name : Text)
  | scalar (p : Properties) (text : Text) (plain : Bool)
  | sequence (p : Properties) (items : List Node)
  | mapping (p : Properties) (pairs : List (Node × Node))

namespace Node

def empty : Node := .scalar {} [] true

/-! ## properties -/

abbrev Handles := List (Text × Text)

def standardHandles : Handles :=
  [(['!'], ['!']), (['!', '!'], "tag:yaml.org,2002:".toList)]

def fullTag (hs : Handles) (handle suffix : Text) : Except Error Text :=
  if handle.isEmpty then .ok suffix
  else
    match hs.lookup handle with
    | some start => .ok (start ++ suffix)
    | none => .error .unknownHandle

/-- the properties at the start of the tokens, and the tokens after them -/
def readProperties (hs : Handles) : List Token → Except Error (Properties × List Token)
  | .anchor a :: .tag h s :: ts => do .ok (⟨some a, some (← fullTag hs h s)⟩, ts)
  | .tag h s :: .anchor a :: ts => do .ok (⟨some a, some (← fullTag hs h s)⟩, ts)
  | .anchor a :: ts => .ok (⟨some a, none⟩, ts)
  | .tag h s :: ts => do .ok (⟨none, some (← fullTag hs h s)⟩, ts)
  | ts => .ok ({}, ts)

/-! ## nodes -/

/-- the place of a node, which decides what may stand there -/
inductive Place where
  /-- an item or the whole document -/
  | block
  /-- a key or a value of a block, where a sequence needs no indentation -/
  | blockPair
  /-- inside of brackets -/
  | flow
deriving DecidableEq

/-- whether an item of a block is left empty before this token -/
def endsItem : Option Token → Bool
  | some .blockEntry | some .blockEnd => true
  | _ => false

/-- whether an item of a sequence without indentation is left empty before this token -/
def endsLooseItem : Option Token → Bool
  | some .blockEntry | some .key | some .value | some .blockEnd => true
  | _ => false

/-- whether a key or a value of a block is left empty before this token -/
def endsPart : Option Token → Bool
  | some .key | some .value | some .blockEnd => true
  | _ => false

/-- whether a value inside of brackets is left empty before this token -/
def endsFlowValue : Option Token → Bool
  | some .flowEntry | some .flowSequenceEnd | some .flowMappingEnd => true
  | _ => false

mutual

/-- a node at the start of the tokens, and the tokens after it -/
def read (hs : Handles) : Nat → Place → List Token → Except Error (Node × List Token)
  | 0, _, _ => .error .tooDeep
  | fuel + 1, place, ts =>
    match ts with
    | .alias name :: ts => .ok (.alias name, ts)
    | ts => do
      let (p, ts) ← readProperties hs ts
      match ts, place with
      | .blockEntry :: _, .blockPair => do
        let (items, ts) ← readLooseItems hs fuel ts
        .ok (.sequence p items, ts)
      | .scalar text plain :: ts, _ => .ok (.scalar p text plain, ts)
      | .flowSequenceStart :: ts, _ => do
        let (items, ts) ← readFlowItems hs fuel true ts
        .ok (.sequence p items, ts)
      | .flowMappingStart :: ts, _ => do
        let (pairs, ts) ← readFlowPairs hs fuel true ts
        .ok (.mapping p pairs, ts)
      | ts, place =>
        match ts with
        | .blockSequenceStart :: ts =>
          if place = .flow then .error .misplacedToken
          else do
            let (items, ts) ← readItems hs fuel ts
            .ok (.sequence p items, ts)
        | .blockMappingStart :: ts =>
          if place = .flow then .error .misplacedToken
          else do
            let (pairs, ts) ← readPairs hs fuel ts
            .ok (.mapping p pairs, ts)
        | ts => if p.isEmpty then .error .misplacedToken else .ok (.scalar p [] true, ts)

def readItems (hs : Handles) : Nat → List Token → Except Error (List Node × List Token)
  | 0, _ => .error .tooDeep
  | fuel + 1, ts =>
    match ts with
    | .blockEnd :: ts => .ok ([], ts)
    | .blockEntry :: ts => do
      let (item, ts) ← if endsItem ts.head? then .ok (empty, ts) else read hs fuel .block ts
      let (items, ts) ← readItems hs fuel ts
      .ok (item :: items, ts)
    | _ => .error .misplacedToken

/-- the items of a sequence without indentation -/
def readLooseItems (hs : Handles) : Nat → List Token → Except Error (List Node × List Token)
  | 0, _ => .error .tooDeep
  | fuel + 1, ts =>
    match ts with
    | .blockEntry :: ts => do
      let (item, ts) ← if endsLooseItem ts.head? then .ok (empty, ts) else read hs fuel .block ts
      let (items, ts) ← readLooseItems hs fuel ts
      .ok (item :: items, ts)
    | ts => .ok ([], ts)

def readPart (hs : Handles) : Nat → List Token → Except Error (Node × List Token)
  | 0, _ => .error .tooDeep
  | fuel + 1, ts => if endsPart ts.head? then .ok (empty, ts) else read hs fuel .blockPair ts

def readPairs (hs : Handles) : Nat → List Token → Except Error (List (Node × Node) × List Token)
  | 0, _ => .error .tooDeep
  | fuel + 1, ts =>
    match ts with
    | .blockEnd :: ts => .ok ([], ts)
    | .key :: ts => do
      let (k, ts) ← readPart hs fuel ts
      let (v, ts) ← match ts with
        | .value :: ts => readPart hs fuel ts
        | ts => .ok (empty, ts)
      let (pairs, ts) ← readPairs hs fuel ts
      .ok ((k, v) :: pairs, ts)
    | _ => .error .misplacedToken

def readFlowValue (hs : Handles) : Nat → List Token → Except Error (Node × List Token)
  | 0, _ => .error .tooDeep
  | fuel + 1, ts =>
    match ts with
    | .value :: ts => if endsFlowValue ts.head? then .ok (empty, ts) else read hs fuel .flow ts
    | ts => .ok (empty, ts)

/-- a pair in a sequence inside of brackets; a key that is left empty takes the next token with it -/
def readFlowPair (hs : Handles) : Nat → List Token → Except Error (Node × List Token)
  | 0, _ => .error .tooDeep
  | fuel + 1, ts => do
    let (k, ts) ←
      match ts with
      | .value :: ts | .flowEntry :: ts | .flowSequenceEnd :: ts => .ok (empty, ts)
      | ts => read hs fuel .flow ts
    let (v, ts) ← readFlowValue hs fuel ts
    .ok (.mapping {} [(k, v)], ts)

def readFlowItems (hs : Handles) : Nat → Bool → List Token → Except Error (List Node × List Token)
  | 0, _, _ => .error .tooDeep
  | fuel + 1, first, ts =>
    match ts with
    | .flowSequenceEnd :: ts => .ok ([], ts)
    | ts => do
      let ts ← if first then .ok ts else
        match ts with
        | .flowEntry :: ts => .ok ts
        | _ => .error .misplacedToken
      match ts with
      | .flowSequenceEnd :: ts => .ok ([], ts)
      | ts => do
        let (item, ts) ← match ts with
          | .key :: ts => readFlowPair hs fuel ts
          | ts => read hs fuel .flow ts
        let (items, ts) ← readFlowItems hs fuel false ts
        .ok (item :: items, ts)

def readFlowPairs (hs : Handles) :
    Nat → Bool → List Token → Except Error (List (Node × Node) × List Token)
  | 0, _, _ => .error .tooDeep
  | fuel + 1, first, ts =>
    match ts with
    | .flowMappingEnd :: ts => .ok ([], ts)
    | ts => do
      let ts ← if first then .ok ts else
        match ts with
        | .flowEntry :: ts => .ok ts
        | _ => .error .misplacedToken
      match ts with
      | .flowMappingEnd :: ts => .ok ([], ts)
      | .key :: ts => do
        let (k, ts) ←
          match ts with
          | .value :: _ | .flowEntry :: _ | .flowMappingEnd :: _ => .ok (empty, ts)
          | ts => read hs fuel .flow ts
        let (v, ts) ← readFlowValue hs fuel ts
        let (pairs, ts) ← readFlowPairs hs fuel false ts
        .ok ((k, v) :: pairs, ts)
      | ts => do
        let (k, ts) ← read hs fuel .flow ts
        let (pairs, ts) ← readFlowPairs hs fuel false ts
        .ok ((k, empty) :: pairs, ts)

end

/-! ## documents -/

def readDirectives (version : Bool) (hs : Handles) :
    List Token → Except Error (Handles × List Token)
  | .versionDirective major minor :: ts =>
    if version || major ≠ 1 || (minor ≠ 1 && minor ≠ 2) then .error .malformedDirective
    else readDirectives true hs ts
  | .tagDirective h s :: ts =>
    if (hs.lookup h).isSome then .error .malformedDirective
    else readDirectives version (hs ++ [(h, s)]) ts
  | ts => .ok (hs, ts)

def endsDocument : Option Token → Bool
  | none | some .documentStart | some .documentEnd | some (.versionDirective _ _)
  | some (.tagDirective _ _) => true
  | _ => false

/-- whether the document begins without a mark -/
def startsBare : Option Token → Bool
  | some .documentStart | some (.versionDirective _ _) | some (.tagDirective _ _) => false
  | _ => true

/-- the one document of the tokens, and the tokens after it; a text without tokens has an empty one -/
def readDocument (ts : List Token) : Except Error (Node × List Token) := do
  let fuel := 3 * ts.length + 3
  if ts.isEmpty then .ok (empty, [])
  else if startsBare ts.head? then read standardHandles fuel .block ts
  else
    let (hs, ts) ← readDirectives false [] ts
    match ts with
    | .documentStart :: ts =>
      if endsDocument ts.head? then .ok (empty, ts)
      else read (hs ++ standardHandles) fuel .block ts
    | _ => .error .misplacedToken

def ofTokens (ts : List Token) : Except Error Node := do
  let (n, ts) ← readDocument ts
  if (ts.dropWhile (· = .documentEnd)).isEmpty then .ok n else .error .manyDocuments

end Node

end MarkdownModule.Yaml

import MarkdownModule.Markdown.Inline.Piece

/-!
# Bare links

An address that stands in the text, without brackets, is a link to itself.  It may begin with
`http://`, `https://` or `www.`, or be an address of mail.  Punctuation at its end is no part of it.

* `readBareLink?`    the address that begins a text, and the text after it
* `linkMail`         the parts of a text, with its addresses of mail as links
-/

namespace MarkdownModule.Markdown

/-! ## ends -/

/-- whether a character may stand in what follows an address -/
def isTrailing (c : Char) : Bool := "!\"')*,.:;?_~".toList.contains c

/-- whether an address ends before a text: what follows is punctuation and then a blank, a `<` or
the end; each step takes one unit of fuel -/
def endsAddress : Nat → Text → Bool
  | 0, _ => false
  | _ + 1, [] => true
  | fuel + 1, c :: r =>
    if isTrailing c then endsAddress fuel r
    else if c = '&' then
      match r.dropWhile Char.isAlpha with
      | ';' :: rest => if r.head? == some ';' then false else endsAddress fuel rest
      | _ => false
    else if c = ']' then
      match r with
      | [] => true
      | d :: _ => if isWide d || d = '(' || d = '[' then true else endsAddress fuel r
    else c = '<' || isBlank c

def isAddressEnd (s : Text) : Bool := endsAddress (s.length + 1) s

/-! ## domains and paths -/

structure DomainState where
  /-- whether a character of a name was seen -/
  named : Bool := false
  /-- whether the part before the last dot holds an underscore -/
  earlier : Bool := false
  /-- whether the part after the last dot holds an underscore -/
  later : Bool := false

/-- whether a domain may end here: its last two parts hold no underscore -/
def DomainState.ok (d : DomainState) : Bool := d.named && !d.earlier && !d.later

def domainEnd? (d : DomainState) : Text → Option Text
  | [] => if d.ok then some [] else none
  | c :: r =>
    if c = '.' || c = '_' then
      if isAddressEnd (c :: r) then (if d.ok then some (c :: r) else none)
      else if c = '_' then domainEnd? { d with later := true } r
      else domainEnd? { d with earlier := d.later, later := false } r
    else if c = '-' then domainEnd? d r
    else if Side.ofChar c = .word then domainEnd? { d with named := true } r
    else if d.ok then some (c :: r)
    else none

def mayTrail (c : Char) : Bool := isTrailing c || c = '&' || c = '<' || c = ']'

/-- the text after a path, of which so many parentheses were opened and closed before -/
def pathEnd : Nat → Nat → Text → Text
  | _, _, [] => []
  | opened, closed, c :: r =>
    if c = '(' then pathEnd (opened + 1) closed r
    else if mayTrail c then
      if isAddressEnd (c :: r) && !(c = ')' && closed < opened) then c :: r
      else pathEnd opened (if c = ')' then closed + 1 else closed) r
    else if isBlank c then c :: r
    else pathEnd opened closed r

def addressEnd? (s : Text) : Option Text := (domainEnd? {} s).map (pathEnd 0 0)

/-! ## addresses in a text -/

/-- whether a text begins with a mark, in any letter case -/
def beginsWith (mark : String) (s : Text) : Bool :=
  Text.sameIgnoringCase mark.toList (s.take mark.length)

def afterProtocol? (s : Text) : Option Text :=
  if beginsWith "http://" s then some (s.drop 7)
  else if beginsWith "https://" s then some (s.drop 8)
  else none

/-- whether an address may begin with `www.` after a character -/
def mayPrecede (before : Option Char) : Bool :=
  match before with
  | none => true
  | some c => isWide c || "(*_[]~".toList.contains c

def readBareLink? (before : Option Char) (s : Text) : Option (Inline × Text) :=
  match afterProtocol? s with
  | some after =>
    if before.any Char.isAlpha then none
    else do
      let rest ← addressEnd? after
      let shown := s.take (s.length - rest.length)
      some (.bareLink shown shown, rest)
  | none =>
    if beginsWith "www." s && mayPrecede before && 4 < s.length then do
      let rest ← addressEnd? s
      let shown := s.take (s.length - rest.length)
      some (.bareLink ("http://".toList ++ shown) shown, rest)
    else none

/-! ## mail -/

def inBareMailName (c : Char) : Bool := c.isAlphanum || c = '+' || c = '-' || c = '.' || c = '_'

inductive MailKind where
  /-- a name alone -/
  | plain
  /-- a name after `mailto:` -/
  | mailto
  /-- a name after `xmpp:` -/
  | xmpp
deriving DecidableEq

/-- the text before an `@`, backwards: what comes before the address, the address up to the `@`
(both backwards), and its kind -/
def splitMailName? (before : Text) : Option (Text × Text × MailKind) :=
  let name := before.takeWhile inBareMailName
  let rest := before.drop name.length
  if name.isEmpty || rest.head? == some '/' then none
  else
    match rest with
    | ':' :: r =>
      let protocol := r.takeWhile Char.isAlphanum
      let address := name ++ ':' :: protocol
      if Text.lower protocol = "otliam".toList then some (r.drop protocol.length, address, .mailto)
      else if Text.lower protocol = "ppmx".toList then some (r.drop protocol.length, address, .xmpp)
      else some (rest, name, .plain)
    | _ => some (rest, name, .plain)

/-- the longest text that may be a domain of mail, whether it holds a dot, and the text after it -/
def spanMailDomain (slash : Bool) : Text → Text × Bool × Text
  | [] => ([], false, [])
  | c :: r =>
    if c.isAlphanum || c = '-' || c = '_' || (slash && c = '/') then
      let t := spanMailDomain slash r
      (c :: t.1, t.2)
    else if c = '.' && r.head?.any Char.isAlphanum then
      let t := spanMailDomain slash r
      (c :: t.1, true, t.2.2)
    else ([], false, c :: r)

/-- the domain of an address of mail after its `@`, and the text after it: it holds a dot and ends
in a letter -/
def readMailDomain? (slash : Bool) (s : Text) : Option (Text × Text) :=
  let t := spanMailDomain slash s
  if t.2.1 && t.1.getLast?.any (fun c => c.isAlpha || c = '.') then some (t.1, t.2.2) else none

/-- the parts of a text with its addresses of mail as links; `before` holds the characters since
the last address, backwards, and each step takes one unit of fuel -/
def linkMailFrom : Nat → Text → Text → List Inline
  | 0, before, s => textOf (before.reverse ++ s)
  | _ + 1, before, [] => textOf before.reverse
  | fuel + 1, before, c :: r =>
    let found :=
      if c = '@' then
        (splitMailName? before).bind fun (rest, name, kind) =>
          (readMailDomain? (kind = .xmpp) r).map fun (domain, after) =>
            (rest, name.reverse ++ '@' :: domain, kind, after)
      else none
    match found with
    | some (rest, shown, kind, after) =>
      let destination := if kind = .plain then "mailto:".toList ++ shown else shown
      textOf rest.reverse ++ .bareLink destination shown :: afterLink fuel after
    | none => linkMailFrom fuel (c :: before) r
where
  /-- the parts after an address, whose next character begins no address -/
  afterLink (fuel : Nat) : Text → List Inline
    | [] => []
    | c :: r => linkMailFrom fuel [c] r

def linkMail (s : Text) : List Inline := linkMailFrom (s.length + 1) [] s

end MarkdownModule.Markdown

import MarkdownModule.Markdown.Escape

/-!
# Addresses

An address is written with its characters percent-encoded, but for those that an address may hold
and for triples that look encoded already.  An address with a protocol that is not permitted is not
written at all.

* `Address.percentEncode`  the encoded form
* `Address.protocol?`      the protocol: what stands before the first colon, unless a `/`, `?` or
                           `#` comes first
* `Address.write`          the address as the value of an attribute
-/

namespace MarkdownModule.Markdown.Address

/-- whether a character of an address is written as it is -/
def isPlain (c : Char) : Bool :=
  c.isAlphanum || "!#$&'()*+,-./:;=?@_~".toList.contains c

def upperHexDigit (n : Nat) : Char :=
  if n < 10 then Char.ofNat ('0'.toNat + n) else Char.ofNat ('A'.toNat + (n - 10))

/-- a character percent-encoded: each byte of its UTF-8 form -/
def encodeChar (c : Char) : Text :=
  (String.utf8EncodeChar c).flatMap fun b =>
    ['%', upperHexDigit (b.toNat / 16), upperHexDigit (b.toNat % 16)]

def percentEncode : Text → Text
  | [] => []
  | '%' :: a :: b :: r =>
    if a.isAlphanum && b.isAlphanum then '%' :: a :: b :: percentEncode r
    else encodeChar '%' ++ percentEncode (a :: b :: r)
  | c :: r => (if isPlain c then [c] else encodeChar c) ++ percentEncode r

def protocol? : Text → Option Text
  | [] => none
  | ':' :: _ => some []
  | c :: r => if c = '/' || c = '?' || c = '#' then none else (protocol? r).map (c :: ·)

inductive Purpose where
  | link
  | image
deriving DecidableEq

def permitted : Purpose → List String
  | .link => ["http", "https", "irc", "ircs", "mailto", "xmpp"]
  | .image => ["http", "https"]

/-- whether an address has no protocol or a permitted one -/
def isPermitted (u : Purpose) (address : Text) : Bool :=
  match protocol? address with
  | none => true
  | some p => (permitted u).contains (String.ofList (Text.lower p))

/-- the address as the value of an attribute: nothing for a protocol that is not permitted -/
def write (anyProtocol : Bool) (u : Purpose) (address : Text) : Text :=
  let encoded := percentEncode address
  if anyProtocol || isPermitted u encoded then escape encoded else []

end MarkdownModule.Markdown.Address

import MarkdownModule.Markdown.Escape

/-!
# Autolinks

An address with a scheme, or an address of mail, between angle brackets is a link to itself.

* `readAutolink?`  the destination and the text of an autolink, and the text after it
-/

namespace MarkdownModule.Markdown

def inScheme (c : Char) : Bool := c.isAlphanum || c = '+' || c = '-' || c = '.'

def inAutolink (c : Char) : Bool := !(c ≤ ' ' || c = '<' || c = '>' || c = '\x7f')

/-- whether a text begins with a scheme of two to 32 characters and a colon -/
def hasScheme (s : Text) : Bool :=
  let scheme := s.takeWhile inScheme
  s.head?.any Char.isAlpha && 2 ≤ scheme.length && scheme.length ≤ 32
    && (s.drop scheme.length).head? == some ':'

/-- whether a character may stand before the `@` of an address of mail -/
def inMailName (c : Char) : Bool := c.isAlphanum || "#$%&'*+-./=?^_\x60\x7b|\x7d~".toList.contains c

/-- whether a text is a part of a domain: letters, digits and inner hyphens, at most 63 -/
def isDomainPart (s : Text) : Bool :=
  s.length ≤ 63 && s.head?.any Char.isAlphanum && s.getLast?.any Char.isAlphanum
    && s.all fun c => c.isAlphanum || c = '-'

def isMail (s : Text) : Bool :=
  let name := s.takeWhile inMailName
  !name.isEmpty
    && match s.drop name.length with
      | '@' :: domain => (Text.splitOn '.' domain).all isDomainPart
      | _ => false

/-- an autolink after its `<`: the destination and the text, and the text after it -/
def readAutolink? (s : Text) : Option ((Text × Text) × Text) :=
  let shown := s.takeWhile inAutolink
  match s.drop shown.length with
  | '>' :: rest =>
    if hasScheme shown then some ((shown, shown), rest)
    else if isMail shown then some (("mailto:".toList ++ shown, shown), rest)
    else none
  | _ => none

end MarkdownModule.Markdown

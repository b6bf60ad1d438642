import MarkdownModule.Markdown.Inline.Scan

/-!
# Addresses of mail in inline content

An address of mail is found when all else is: it may hold characters that turned out to mean
nothing.  No address is looked for in a link.

* `Inline.findMail`   the parts of inline content with its addresses of mail as links
* `Scope.read`        the inline content of a text
-/

namespace MarkdownModule.Markdown

mutual

def Inline.findMail : Inline → List Inline
  | .text s => linkMail s
  | .emphasis inner => [.emphasis (findMailAll inner)]
  | .strong inner => [.strong (findMailAll inner)]
  | .struck inner => [.struck (findMailAll inner)]
  | .image destination title inner => [.image destination title (findMailAll inner)]
  | i => [i]

def findMailAll : List Inline → List Inline
  | [] => []
  | i :: is => i.findMail ++ findMailAll is

end

/-- the inline content of a text; `inItem` tells whether it begins an item of a list -/
def Scope.read (e : Scope) (inItem : Bool) (c : Content) : List Inline :=
  let is := e.readPieces inItem c
  if e.settings.autolinkLiteral then findMailAll is else is

end MarkdownModule.Markdown

import MarkdownModule.Markdown.Address
import MarkdownModule.Text.LetterCase

/-!
# Footnotes

A footnote is numbered by the place of its first call among those of all footnotes.  The section of
footnotes at the end of a document holds those that were called, each with a link back to every one
of its calls.

* `Calls.add`              the calls after one more
* `Footnote.writeCall`     a call in the text
* `Footnote.writeSection`  the section at the end
-/

namespace MarkdownModule.Markdown

/-- the labels of the footnotes that were called, in the order of their first calls, and how often
each was called -/
abbrev Calls := List (Text × Nat)

namespace Calls

def add (label : Text) : Calls → Calls
  | [] => [(label, 1)]
  | (l, n) :: cs => if l == label then (l, n + 1) :: cs else (l, n) :: add label cs

def number (label : Text) (cs : Calls) : Nat := cs.findIdx (·.1 == label) + 1

def count (label : Text) (cs : Calls) : Nat := (cs.lookup label).getD 0

end Calls

namespace Footnote

def digits (n : Nat) : Text := (toString n).toList

def anchor (label : Text) : Text := escape (Address.percentEncode (Text.lowerCase label))

/-- the ending of the name of the `n`th call: nothing for the first -/
def ordinal (n : Nat) : Text := if n ≤ 1 then [] else '-' :: digits n

def writeCall (label : Text) (cs : Calls) : Text :=
  "<sup><a href=\"#user-content-fn-".toList ++ anchor label
    ++ "\" id=\"user-content-fnref-".toList ++ anchor label ++ ordinal (cs.count label)
    ++ "\" data-footnote-ref=\"\" aria-describedby=\"footnote-label\">".toList
    ++ digits (cs.number label) ++ "</a></sup>".toList

def backLink (label : Text) (n : Nat) : Text :=
  "<a href=\"#user-content-fnref-".toList ++ anchor label ++ ordinal n
    ++ ("\" data-footnote-backref=\"\" aria-label=\"Back to content\" "
        ++ "class=\"data-footnote-backref\">↩").toList
    ++ (if n ≤ 1 then [] else "<sup>".toList ++ digits n ++ "</sup>".toList)
    ++ "</a>".toList

def backLinks (label : Text) (count : Nat) : Text :=
  List.intercalate [' '] ((List.range count).map fun n => backLink label (n + 1))

def paragraphEnd : Text := "</p>".toList

/-- whether a new line may begin after a text -/
def isLineEnd (s : Text) : Bool := s.isEmpty || Text.endsWith '\n' s || Text.endsWith '\r' s

/-- a text after which a new line may begin -/
def endLine (s : Text) : Text := if isLineEnd s then s else s ++ ['\n']

/-- the text of a footnote with links back: they stand in its last paragraph if it ends with one,
else on a line of their own -/
def withBackLinks (links body : Text) : Text :=
  let kept := Text.dropEndWhile (fun c => c = '\n' || c = '\r') body
  if paragraphEnd.isSuffixOf kept then
    kept.take (kept.length - paragraphEnd.length) ++ ' ' :: links ++ paragraphEnd
  else endLine body ++ links

def writeItem (bodies : List (Text × Text)) (call : Text × Nat) : Text :=
  "\n<li id=\"user-content-fn-".toList ++ anchor call.1 ++ "\">\n".toList
    ++ withBackLinks (backLinks call.1 call.2) ((bodies.lookup call.1).getD [])
    ++ "\n</li>".toList

/-- the section of the footnotes that were called, whose texts are `bodies` -/
def writeSection (bodies : List (Text × Text)) (cs : Calls) : Text :=
  ("<section data-footnotes=\"\" class=\"footnotes\"><h2 id=\"footnote-label\" "
      ++ "class=\"sr-only\">Footnotes</h2>\n<ol>").toList
    ++ cs.flatMap (writeItem bodies) ++ "\n</ol>\n</section>\n".toList

end Footnote

end MarkdownModule.Markdown

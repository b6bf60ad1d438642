import MarkdownModule.Markdown.Block.Fence

/-!
# Headings and rules

A heading begins with one to six number signs, or is a paragraph with a row of equals signs or
hyphens under it.  Three or more asterisks, hyphens or underscores alone on a line are a rule.

* `readHeading?`  the level and the text of the heading that a line is
* `underline?`    the level of the heading that a line makes of the paragraph before it
* `isRule`        whether a line is a rule
-/

namespace MarkdownModule.Markdown

/-- the text without the words at its end that are made of number signs; each of them takes one
unit of fuel -/
def dropClosing : Nat → Text → Text
  | 0, s => s
  | fuel + 1, s =>
    let kept := Text.dropEndWhile isGap s
    let rest := Text.dropEndWhile (· = '#') kept
    if rest.length < kept.length && (rest.isEmpty || rest.getLast?.any isGap) then
      dropClosing fuel rest
    else kept

/-- the text of a heading: number signs before and after it belong to no word of it -/
def headingText (s : Text) : Text :=
  dropClosing (s.length + 1) (s.dropWhile fun c => isGap c || c = '#')

/-- the level and the text of the heading that a line is -/
def readHeading? (l : Line) : Option (Nat × Text) :=
  let s := l.inner
  let level := runLength '#' s
  let after := s.drop level
  if mostIndent < l.indent || level = 0 || 6 < level || !(after.head?.all isGap) then none
  else some (level, headingText after)

/-- the level of the heading that a line makes of the paragraph before it -/
def underline? (l : Line) : Option Nat :=
  let s := Text.dropEndWhile isGap l.inner
  if mostIndent < l.indent || s.isEmpty then none
  else if s.all (· = '=') then some 1
  else if s.all (· = '-') then some 2
  else none

/-- whether a text is made of three or more equal marks of a rule, and blanks -/
def isRuleText (s : Text) : Bool :=
  match s with
  | [] => false
  | c :: _ =>
    (c = '*' || c = '-' || c = '_') && s.all (fun d => d = c || isGap d) && 3 ≤ s.count c

def isRule (l : Line) : Bool := l.indent ≤ mostIndent && isRuleText l.inner

end MarkdownModule.Markdown

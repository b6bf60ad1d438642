import MarkdownModule.Markdown.Footnote
import MarkdownModule.Markdown.Inline
import MarkdownModule.Options.Renderer

/-!
# Inline content in HTML

* `Inline.write`   inline content, and the calls of footnotes after it
-/

namespace MarkdownModule.Markdown

structure InlinePlace where
  /-- whether it is the text of an image: no tag is written -/
  inImage : Bool := false
  inLink : Bool := false

namespace InlinePlace

/-- a text between tags, where tags are written -/
def tagged (p : InlinePlace) (opening closing : String) (s : Text) : Text :=
  if p.inImage then s else opening.toList ++ s ++ closing.toList

end InlinePlace

def titleAttribute : Option Text → Text
  | none => []
  | some t => " title=\"".toList ++ escape t ++ ['"']

def linkTag (o : MarkdownSettings) (destination : Text) (title : Option Text) : Text :=
  "<a href=\"".toList ++ Address.write o.anyProtocol .link destination ++ '"'
    :: titleAttribute title ++ ['>']

def writeAutolink (o : MarkdownSettings) (destination shown : Text) : Text :=
  linkTag o destination none ++ escape shown ++ "</a>".toList

def writeImage (o : MarkdownSettings) (destination alt : Text) (title : Option Text) : Text :=
  "<img src=\"".toList ++ Address.write o.anyProtocol .image destination
    ++ "\" alt=\"".toList ++ alt ++ '"' :: titleAttribute title ++ " />".toList

def writeCheckBox (checked : Bool) : Text :=
  "<input type=\"checkbox\" disabled=\"\" ".toList
    ++ (if checked then "checked=\"\" ".toList else []) ++ "/>".toList

mutual

/-- inline content in HTML, and the calls of footnotes after it -/
def Inline.write (o : MarkdownSettings) (p : InlinePlace) (cs : Calls) : Inline → Text × Calls
  | .text s => (escape s, cs)
  | .decoded s => (escape s, cs)
  | .softBreak _ => (['\n'], cs)
  | .hardBreak => (p.tagged "<br />" "" [] ++ ['\n'], cs)
  | .code s => (p.tagged "<code>" "</code>" (escape s), cs)
  | .formula s => (p.tagged "<code class=\"language-math math-inline\">" "</code>" (escape s), cs)
  | .html s => (if o.rawHtml then keep s else escape s, cs)
  | .emphasis inner =>
    let t := writeInlines o p cs inner
    (p.tagged "<em>" "</em>" t.1, t.2)
  | .strong inner =>
    let t := writeInlines o p cs inner
    (p.tagged "<strong>" "</strong>" t.1, t.2)
  | .struck inner =>
    let t := writeInlines o p cs inner
    (p.tagged "<del>" "</del>" t.1, t.2)
  | .link destination title inner =>
    let t := writeInlines o { p with inLink := true } cs inner
    (if p.inImage then t.1 else linkTag o destination title ++ t.1 ++ "</a>".toList, t.2)
  | .image destination title inner =>
    let t := writeInlines o { p with inImage := true } cs inner
    (if p.inImage then t.1 else writeImage o destination t.1 title, t.2)
  | .autolink destination shown =>
    (if p.inImage then escape shown else writeAutolink o destination shown, cs)
  | .bareLink destination shown =>
    (if p.inImage || p.inLink then escape shown else writeAutolink o destination shown, cs)
  | .footnoteCall label =>
    let cs := cs.add label
    (if p.inImage then [] else Footnote.writeCall label cs, cs)
  | .checkBox checked => (if p.inImage then [] else writeCheckBox checked, cs)

def writeInlines (o : MarkdownSettings) (p : InlinePlace) (cs : Calls) : List Inline → Text × Calls
  | [] => ([], cs)
  | i :: is =>
    let t := i.write o p cs
    let u := writeInlines o p t.2 is
    (t.1 ++ u.1, u.2)

end

end MarkdownModule.Markdown

import MarkdownModule.Text.Bytes

/-!
# Raw text

The content of some elements is no markup.  It lasts to the first `</name`, in any letter case.
-/

namespace MarkdownModule.Html

/-- whether `</name` stands at the start of the text, in any letter case -/
def closesRawText (name s : Text) : Bool :=
  Text.lower (s.take (name.length + 2)) == '<' :: '/' :: name

/-- the raw text of an element whose name in lower case is `name`, and the text from its end on -/
def cutRawText (name s : Text) : Text × Text := Text.cutAt (closesRawText name) s

theorem length_cutRawText_snd_le (name s : Text) : (cutRawText name s).2.length ≤ s.length :=
  Text.length_cutAt_snd_le _ s

/-- the byte position where raw text that begins at `start` ends -/
def rawTextEnd? (html : Text) (start : Nat) (name : Text) : Option Nat :=
  (Text.dropBytes? start html).map fun s => start + Text.byteSize (cutRawText name s).1

end MarkdownModule.Html

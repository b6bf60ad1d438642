import MarkdownModule.Html.ElementName
import MarkdownModule.Html.RawText
import MarkdownModule.Html.TagEnd

/-!
# The start tags of a document

`Html.startTagNames` gives the name of every start tag, in order, as it is written.  Comments and
the content of scripts and style sheets hold no tags.
-/

namespace MarkdownModule.Html

/-- the elements whose content holds no tags -/
def scriptNames : List String := ["script", "style"]

/-- the text after a comment, of whose opening `<!--` only the `<` has been read -/
def afterComment (s : Text) : Text := Text.afterMark "-->".toList (s.drop 3)

theorem length_afterComment_le (s : Text) : (afterComment s).length ≤ s.length := by
  have h := Text.length_afterMark_le "-->".toList (s.drop 3)
  simp only [List.length_drop] at h
  unfold afterComment
  omega

/-- the text after a start tag of which `s` follows the name, without raw content -/
def afterStartTag (name s : Text) : Text :=
  if isListed scriptNames name then (cutRawText (Text.lower name) (afterTag s)).2 else afterTag s

theorem length_afterStartTag_le (name s : Text) : (afterStartTag name s).length ≤ s.length := by
  have h := length_afterTag_le s
  have h' := length_cutRawText_snd_le (Text.lower name) (afterTag s)
  unfold afterStartTag
  split <;> omega

def startTagNames : Text → List Text
  | [] => []
  | c :: r =>
    if c ≠ '<' then startTagNames r
    else if "!--".toList.isPrefixOf r then startTagNames (afterComment r)
    else if r.head?.any Char.isAlpha then
      let name := r.takeWhile isNameChar
      name :: startTagNames (afterStartTag name (r.dropWhile isNameChar))
    else startTagNames r
termination_by s => s.length
decreasing_by
  · simp
  · have := length_afterComment_le r
    simp only [List.length_cons]; omega
  · have h := length_afterStartTag_le (r.takeWhile isNameChar) (r.dropWhile isNameChar)
    have h' := (List.dropWhile_suffix (l := r) isNameChar).length_le
    simp only [List.length_cons]; omega
  · simp

end MarkdownModule.Html

import MarkdownModule.Proofs.Jsx.Coverage
import MarkdownModule.Proofs.Jsx.Translation

/-!
# The tokens of a document

A document is a row of tokens: text, comments, end tags, start tags, and scripts or style sheets
with their content.  Behind each token the scan for start tags begins anew, whatever is written in
comments, in quoted values and in the content of a script.

* `Html.Balanced`                  what may stand behind the name of a start tag
* `Html.Token`                     the tokens
* `Html.startTagNames_source`      the scan over one token
* `ComponentReference.scan_source` the references of a document, from its tokens
-/

namespace MarkdownModule.Html

open Jsx (TagName)

/-! ## grammar -/

/-- a text in which quotes are balanced and a `>` stands in quotes alone -/
inductive Balanced : Text → Prop
  | nil : Balanced []
  | char {c : Char} {s : Text} (hq : isQuote c = false) (hc : c ≠ '>') (hs : Balanced s) :
      Balanced (c :: s)
  | quoted {q : Char} {v s : Text} (hq : isQuote q = true) (hv : q ∉ v) (hs : Balanced s) :
      Balanced (q :: v ++ [q] ++ s)

/-- what stands between the name of a start tag and its `>` -/
structure TagTail where
  text : Text
  head : ∀ c ∈ text.head?, isBlank c = true ∨ c = '/'
  balanced : Balanced text

inductive Token where
  | text (s : Text) (free : '<' ∉ s)
  | comment (content : Text) (free : ¬ "-->".toList <:+: content)
  | endTag (name : TagName)
  /-- the start tag of an element whose content is markup -/
  | startTag (name : TagName) (tail : TagTail) (plain : isListed scriptNames name.text = false)
  /-- a script or a style sheet, in any letter case, with its content and its end tag -/
  | script (name : TagName) (tail : TagTail) (content : Text) (closing : TagName)
      (raw : isListed scriptNames name.text = true)
      (same : Text.lower closing.text = Text.lower name.text)
      (free : ¬ ('<' :: '/' :: Text.lower name.text) <:+: Text.lower content)

def tagSource (name : TagName) (tail : TagTail) : Text := '<' :: name.text ++ tail.text ++ ['>']

namespace Token

def source : Token → Text
  | text s _ => s
  | comment content _ => "<!--".toList ++ content ++ "-->".toList
  | endTag name => name.endTag
  | startTag name tail _ => tagSource name tail
  | script name tail content closing _ _ _ => tagSource name tail ++ content ++ closing.endTag

/-- the name of the start tag of a token -/
def names : Token → List Text
  | startTag name _ _ => [name.text]
  | script name _ _ _ _ _ _ => [name.text]
  | _ => []

end Token

/-! ## one token -/

theorem Balanced.quiet {s : Text} (h : Balanced s) : Quiet s := by
  induction h with
  | nil => exact quiet_nil
  | @char c s hq hc _ ih =>
    have hone : Quiet [c] := quiet_of_forall fun d hd => by
      rw [List.mem_singleton.1 hd]
      exact ⟨hq, hc⟩
    exact hone.append ih
  | quoted hq hv _ ih => exact (quiet_quoted hq hv).append ih

theorem startTagNames_endTag (name : TagName) (r : Text) :
    startTagNames (name.endTag ++ r) = startTagNames r := by
  have hfree : '<' ∉ '/' :: name.text ++ ['>'] := by
    have := Jsx.Forest.lt_not_mem_name name
    simp [this]
  have e : name.endTag ++ r = '<' :: ('/' :: name.text ++ ['>'] ++ r) := by
    simp [TagName.endTag]
  have hslash : ¬ ('/' :: name.text ++ ['>'] ++ r).head?.any Char.isAlpha = true := by
    show ¬ Char.isAlpha '/' = true
    decide
  rw [e, startTagNames, if_neg (by simp), if_neg (by simp [List.isPrefixOf]), if_neg hslash,
    Jsx.startTagNames_text hfree]

theorem startTagNames_comment {content : Text} (h : ¬ "-->".toList <:+: content) (r : Text) :
    startTagNames ("<!--".toList ++ content ++ "-->".toList ++ r) = startTagNames r := by
  have e : "<!--".toList ++ content ++ "-->".toList ++ r =
      '<' :: ("!--".toList ++ content ++ "-->".toList ++ r) := rfl
  have hmark : "!--".toList.isPrefixOf ("!--".toList ++ content ++ "-->".toList ++ r) = true := by
    rw [List.append_assoc, List.append_assoc]
    exact List.isPrefixOf_iff_prefix.2 (List.prefix_append _ _)
  rw [e, startTagNames, if_neg (by simp), if_pos hmark, Jsx.afterComment_eq h]

theorem tagSource_append (name : TagName) (tail : TagTail) (r : Text) :
    tagSource name tail ++ r = '<' :: (name.text ++ tail.text) ++ '>' :: r := by
  simp [tagSource]

/-- what stands behind the name of a start tag goes on no name -/
theorem TagTail.isNameChar_head (tail : TagTail) :
    ∀ c ∈ tail.text.head?, isNameChar c = false := by
  intro c hc
  rcases tail.head c hc with h | rfl
  · exact isNameChar_of_isBlank h
  · decide

/-- the name and what stands behind it are read off the inside of a start tag -/
theorem span_tagSource (name : TagName) (tail : TagTail) :
    (name.text ++ tail.text).takeWhile isNameChar = name.text ∧
      (name.text ++ tail.text).dropWhile isNameChar = tail.text :=
  Text.span_of_forall name.chars tail.isNameChar_head

theorem quiet_tagSource (name : TagName) (tail : TagTail) : Quiet (name.text ++ tail.text) :=
  (Jsx.StartTag.quiet_of_isNameChar name.chars).append tail.balanced.quiet

/-- the scan over a start tag goes on behind its `>`, or behind raw content -/
theorem startTagNames_tagSource (name : TagName) (tail : TagTail) (r : Text) :
    startTagNames (tagSource name tail ++ r) =
      name.text :: startTagNames
        (if isListed scriptNames name.text then (cutRawText (Text.lower name.text) r).2 else r) := by
  have hname := (span_tagSource name tail).1
  have hclose := (quiet_tagSource name tail).closeTag_eq r
  have halpha : (name.text ++ tail.text ++ '>' :: r).head?.any Char.isAlpha = true := by
    rw [List.append_assoc]
    exact name.head_append _
  rw [tagSource_append, List.cons_append, Jsx.startTagNames_tag halpha hclose]
  show (name.text ++ tail.text).takeWhile isNameChar :: startTagNames
    (if isListed scriptNames ((name.text ++ tail.text).takeWhile isNameChar) then
      (cutRawText (Text.lower ((name.text ++ tail.text).takeWhile isNameChar)) r).2 else r) = _
  rw [hname]

/-- content that holds no end of itself ends at an end tag in any letter case -/
theorem cutRawText_endTag {name closing : TagName} {content : Text}
    (same : Text.lower closing.text = Text.lower name.text)
    (free : ¬ ('<' :: '/' :: Text.lower name.text) <:+: Text.lower content) (r : Text) :
    cutRawText (Text.lower name.text) (content ++ closing.endTag ++ r) =
      (content, closing.endTag ++ r) := by
  rw [← same] at free ⊢
  have h := cutRawText_eq (Jsx.Forest.lt_not_mem_name closing) free ('>' :: r)
  have e : closing.endTag ++ r = '<' :: '/' :: closing.text ++ '>' :: r := by
    simp [TagName.endTag]
  rw [List.append_assoc, e, h]

/-- **The scan over one token reads its name and begins anew behind it.** -/
theorem startTagNames_source (t : Token) (r : Text) :
    startTagNames (t.source ++ r) = t.names ++ startTagNames r := by
  cases t with
  | text s free => exact Jsx.startTagNames_text free r
  | comment content free => exact startTagNames_comment free r
  | endTag name => exact startTagNames_endTag name r
  | startTag name tail plain =>
    show startTagNames (tagSource name tail ++ r) = name.text :: startTagNames r
    rw [startTagNames_tagSource, plain, if_neg Bool.false_ne_true]
  | script name tail content closing raw same free =>
    show startTagNames (tagSource name tail ++ content ++ closing.endTag ++ r) =
      name.text :: startTagNames r
    rw [List.append_assoc, List.append_assoc, startTagNames_tagSource, if_pos raw,
      ← List.append_assoc, cutRawText_endTag same free]
    show name.text :: startTagNames (closing.endTag ++ r) = _
    rw [startTagNames_endTag]

/-! ## rows of tokens -/

theorem startTagNames_flatMap (ts : List Token) :
    startTagNames (ts.flatMap Token.source) = ts.flatMap Token.names := by
  induction ts with
  | nil => exact startTagNames_nil
  | cons t ts ih => rw [List.flatMap_cons, startTagNames_source, ih, List.flatMap_cons]

end MarkdownModule.Html

namespace MarkdownModule.ComponentReference

open Html (Token isCustom)

/-- **The references of a document are those of the custom names among its start tags**, each kebab
name where it occurs first. -/
theorem scan_source (ts : List Token) :
    scan (ts.flatMap Token.source) =
      firstsBy kebab (((ts.flatMap Token.names).filter isCustom).map ofTag) := by
  rw [scan, Html.startTagNames_flatMap, firsts_eq_firstsBy]

example : (scan "<!-- <a-b> --><x-y t='<c-d>'><SCRIPT><e-f></sCript></g-h><X-Y/>".toList).map kebab =
    ["x-y".toList] := by decide +kernel

end MarkdownModule.ComponentReference

import MarkdownModule.Proofs.Html.RawText
import MarkdownModule.Proofs.Jsx.Piece
import MarkdownModule.Proofs.Jsx.TagRead

/-!
# The conversion translates trees

`Jsx.ofHtml` reads a document from left to right and knows nothing of trees.  On a well-formed tree
it gives the tree written as JSX.  The induction is on the tree; what it carries is the depth in
`pre`, and that the text behind the tree begins no further text.

* `Jsx.Forest.ofHtmlAt_html`  a tree in front of other markup
* `Jsx.Forest.ofHtml_html`    a tree as a document
-/

namespace MarkdownModule.Jsx

open Html

/-! ## text and comments -/

/-- a text at which a run of text ends -/
def EndsText (r : Text) : Prop := ∀ c ∈ r.head?, c = '<'

theorem ofHtmlAt_text (depth : Nat) {s r : Text} (hs : s ≠ []) (hl : '<' ∉ s) (hr : EndsText r) :
    ofHtmlAt depth (s ++ r) =
      (if 0 < depth then writeVerbatim s else writeText s) ++ ofHtmlAt depth r := by
  have hspan : (s ++ r).takeWhile (· ≠ '<') = s ∧ (s ++ r).dropWhile (· ≠ '<') = r := by
    refine Text.span_of_forall (fun c hc => ?_) (fun c hc => ?_)
    · exact decide_eq_true fun e => hl (e ▸ hc)
    · rw [hr c hc]
      rfl
  cases s with
  | nil => exact absurd rfl hs
  | cons c t =>
    have hc : c ≠ '<' := fun e => hl (List.mem_cons.2 (.inl e.symm))
    rw [List.cons_append] at hspan ⊢
    rw [ofHtmlAt_cons, step, if_neg hc, textStep, hspan.1, hspan.2]

/-- a comment ends where it was ended -/
theorem afterComment_eq {content : Text} (h : ¬ "-->".toList <:+: content) (r : Text) :
    afterComment ("!--".toList ++ content ++ "-->".toList ++ r) = r := by
  have hcut : Text.cutAt ("-->".toList.isPrefixOf ·) (content ++ ("-->".toList ++ r)) =
      (content, "-->".toList ++ r) := by
    refine Text.cutAt_eq (fun t hne hsuf => ?_) (.inr ?_)
    · rw [← Bool.not_eq_true, List.isPrefixOf_iff_prefix]
      intro hp
      match t, hne with
      | [c], _ =>
        obtain ⟨u, e⟩ := hp
        simp at e
      | [c, d], _ =>
        obtain ⟨u, e⟩ := hp
        simp at e
      | c :: d :: e :: t, _ =>
        refine h ((List.IsPrefix.isInfix ?_).trans hsuf.isInfix)
        exact List.prefix_of_prefix_length_le hp (List.prefix_append _ _) (by simp)
    · exact List.isPrefixOf_iff_prefix.2 (List.prefix_append _ _)
  have hd : ("!--".toList ++ content ++ "-->".toList ++ r).drop 3 =
      content ++ ("-->".toList ++ r) := by simp
  rw [afterComment, hd, Text.afterMark, hcut]
  exact List.drop_left' rfl

theorem ofHtmlAt_comment (depth : Nat) {content : Text} (h : ¬ "-->".toList <:+: content)
    (r : Text) :
    ofHtmlAt depth (commentSource content ++ r) = ofHtmlAt depth r := by
  have hp : "!--".toList.isPrefixOf ("!--".toList ++ content ++ "-->".toList ++ r) = true := by
    rw [List.append_assoc, List.append_assoc]
    exact List.isPrefixOf_iff_prefix.2 (List.prefix_append _ _)
  rw [commentSource_append, ofHtmlAt_cons, step, if_pos rfl, markupStep, if_pos hp,
    afterComment_eq h]
  rfl

/-! ## tags -/

theorem nameStart?_append {inside : Text} (ha : (nameStart? inside).any Char.isAlpha = true)
    (s : Text) : nameStart? (inside ++ s) = nameStart? inside ∧
      ∃ c t, inside = c :: t ∧ (c = '/' ∨ c.isAlpha = true) := by
  by_cases h : inside.head? = some '/'
  · obtain ⟨t, rfl⟩ := List.head?_eq_some_iff.1 h
    cases t with
    | nil => exact absurd ha Bool.false_ne_true
    | cons c t => exact ⟨rfl, '/', c :: t, rfl, .inl rfl⟩
  · rw [nameStart?_eq h] at ha ⊢
    cases inside with
    | nil => exact absurd ha Bool.false_ne_true
    | cons c t => exact ⟨nameStart?_eq h, c, t, rfl, .inr ha⟩

/-- the conversion over a tag that is not left open -/
theorem ofHtmlAt_tag (depth : Nat) {inside : Text} (r : Text)
    (ha : (nameStart? inside).any Char.isAlpha = true) (hq : Quiet inside) :
    ofHtmlAt depth ('<' :: inside ++ '>' :: r) =
      (tagStep depth inside r).written ++
        ofHtmlAt (tagStep depth inside r).depth (tagStep depth inside r).rest := by
  obtain ⟨hn, c, t, rfl, hc⟩ := nameStart?_append ha ('>' :: r)
  have hbang : c ≠ '!' ∧ c ≠ '?' := by
    constructor <;> rintro rfl <;> exact absurd hc (by decide)
  have hm : ¬ "!--".toList.isPrefixOf (c :: t ++ '>' :: r) = true := by
    rw [List.isPrefixOf_iff_prefix]
    rintro ⟨u, e⟩
    exact hbang.1 (List.cons.inj e).1.symm
  have hd : ¬ (decide ((c :: t ++ '>' :: r).head? = some '!') ||
      decide ((c :: t ++ '>' :: r).head? = some '?')) = true := by
    simp [hbang.1, hbang.2]
  rw [List.cons_append, ofHtmlAt_cons, step, if_pos rfl, markupStep, if_neg hm, if_neg hd, hn,
    if_pos ha, hq.closeTag_eq]

/-- the conversion over a start tag that is not left open -/
theorem ofHtmlAt_start (depth : Nat) {inside : Text} (r : Text)
    (ha : inside.head?.any Char.isAlpha = true) (hq : Quiet inside) :
    ofHtmlAt depth ('<' :: inside ++ '>' :: r) =
      (startTagStep depth inside r).written ++
        ofHtmlAt (startTagStep depth inside r).depth (startTagStep depth inside r).rest := by
  have hs : inside.head? ≠ some '/' := by
    intro e
    rw [e] at ha
    exact absurd ha (by decide)
  rw [ofHtmlAt_tag depth r (by rwa [nameStart?_eq hs]) hq, tagStep_of_start hs]

/-- a text that begins with a name begins with a letter -/
theorem TagName.head_append (n : TagName) (s : Text) :
    (n.text ++ s).head?.any Char.isAlpha = true := by
  have h := n.head
  cases e : n.text with
  | nil => rw [e] at h; exact absurd h Bool.false_ne_true
  | cons c t => rw [e] at h; exact h

theorem ofHtmlAt_endTag (depth : Nat) (t : StartTag) (r : Text)
    (hv : isListed voidNames t.name.text = false) :
    ofHtmlAt depth (t.name.endTag ++ r) =
      t.jsxEnd ++
        ofHtmlAt (if isListed verbatimNames t.name.text then depth - 1 else depth) r := by
  have ha : (nameStart? ('/' :: t.name.text)).any Char.isAlpha = true := t.name.head
  have hq : Quiet ('/' :: t.name.text) :=
    (quiet_of_forall (s := ['/']) (by simp [isQuote])).append (StartTag.quiet_of_isNameChar t.name.chars)
  have hname : t.name.text.takeWhile isNameChar = t.name.text := by
    have h := (Text.span_of_forall (t := []) t.name.chars fun c hc => absurd hc (by simp)).1
    rwa [List.append_nil] at h
  have es : t.name.endTag ++ r = '<' :: ('/' :: t.name.text) ++ '>' :: r := by
    simp [TagName.endTag]
  rw [es, ofHtmlAt_tag depth r ha hq, tagStep, endTagStep, hname]
  dsimp only
  rw [writeEndTag, hv, if_neg Bool.false_ne_true]
  rfl

/-- the conversion over a start tag -/
theorem ofHtmlAt_startTag (depth : Nat) (t : StartTag) (slash : Bool) (r : Text) :
    ofHtmlAt depth (t.source slash ++ r) =
      (if slash || isListed voidNames t.name.text then t.jsxClosed ++ ofHtmlAt depth r
      else if isListed rawNames t.name.text then
        t.jsx ++ ['>'] ++ writeRaw t.name.text (cutRawText (Text.lower t.name.text) r).1 ++
          ofHtmlAt depth (cutRawText (Text.lower t.name.text) r).2
      else t.jsx ++ ['>'] ++
        ofHtmlAt (if isListed verbatimNames t.name.text then depth + 1 else depth) r) := by
  have ha : (t.inside slash).head?.any Char.isAlpha = true := t.name.head_append (t.body slash)
  have hopen : opensElement t.name.text (.ofText (t.body slash)) =
      !(slash || isListed voidNames t.name.text) := by
    rw [opensElement, t.selfClosing_body]
  have hwrite : writeStartTag t.name.text (.ofText (t.body slash)) =
      t.jsx ++ if slash || isListed voidNames t.name.text then " />".toList else ['>'] := by
    rw [writeStartTag, t.writeAttributes_body, hopen, StartTag.jsx]
    cases slash || isListed voidNames t.name.text <;> rfl
  have es : t.source slash ++ r = '<' :: t.inside slash ++ '>' :: r := by
    simp [StartTag.source]
  obtain ⟨hname, hbody⟩ := t.span_inside slash
  rw [es, ofHtmlAt_start depth r ha (t.quiet_inside slash), startTagStep, hname, hbody]
  dsimp only
  rw [hopen, hwrite]
  cases slash || isListed voidNames t.name.text with
  | true => simp [StartTag.jsxClosed]
  | false =>
    cases isListed rawNames t.name.text with
    | true => simp
    | false => simp

/-! ## trees -/

namespace Forest

theorem endsText_cons (r : Text) : EndsText ('<' :: r) := by
  intro c hc
  rw [List.head?_cons, Option.mem_some_iff] at hc
  exact hc.symm

theorem endsText_source (t : StartTag) (slash : Bool) (r : Text) :
    EndsText (t.source slash ++ r) := endsText_cons _

theorem endsText_endTag (n : TagName) (r : Text) : EndsText (n.endTag ++ r) := endsText_cons _

/-- a row that begins with no text ends a run of text before it -/
theorem endsText_html (f : Forest) (hf : f.beginsWithText = false) {r : Text} (hr : EndsText r) :
    EndsText (f.html ++ r) := by
  cases f with
  | nil => exact hr
  | text s rest => exact absurd hf (by simp [beginsWithText])
  | comment content rest =>
    rw [html, List.append_assoc, commentSource_append]
    exact endsText_cons _
  | closed tag slash rest =>
    rw [html, List.append_assoc]
    exact endsText_source tag slash _
  | element tag children rest =>
    rw [html, List.append_assoc, List.append_assoc, List.append_assoc]
    exact endsText_source tag false _
  | raw tag content rest =>
    rw [html, List.append_assoc, List.append_assoc, List.append_assoc]
    exact endsText_source tag false _

theorem lt_not_mem_name (n : TagName) : '<' ∉ n.text :=
  fun h => absurd (n.chars _ h) (by decide)

theorem isListed_voidNames_of_rawNames {name : Text} (h : isListed rawNames name = true) :
    isListed voidNames name = false := by
  unfold isListed at h ⊢
  simp only [rawNames, List.contains_cons, List.contains_nil, Bool.or_false, Bool.or_eq_true,
    beq_iff_eq] at h
  rcases h with h | h | h <;> rw [h] <;> decide

theorem isListed_verbatimNames_of_rawNames {name : Text} (h : isListed rawNames name = true) :
    isListed verbatimNames name = false := by
  unfold isListed at h ⊢
  simp only [rawNames, List.contains_cons, List.contains_nil, Bool.or_false, Bool.or_eq_true,
    beq_iff_eq] at h
  rcases h with h | h | h <;> rw [h] <;> decide

/-- **The conversion of a tree in front of other markup.** -/
theorem ofHtmlAt_html (f : Forest) (hf : f.WellFormed) (depth : Nat) {r : Text}
    (hr : EndsText r) :
    ofHtmlAt depth (f.html ++ r) = f.jsx (0 < depth) ++ ofHtmlAt depth r := by
  induction f generalizing depth r with
  | nil => rfl
  | text s rest ih =>
    obtain ⟨⟨hs, hl, hb⟩, hrest⟩ := hf
    rw [html, List.append_assoc, ofHtmlAt_text depth hs hl (endsText_html rest hb hr),
      ih hrest depth hr, jsx, List.append_assoc]
    simp
  | comment content rest ih =>
    obtain ⟨hc, hrest⟩ := hf
    rw [html, List.append_assoc, ofHtmlAt_comment depth hc, ih hrest depth hr, jsx]
  | closed tag slash rest ih =>
    obtain ⟨hs, hrest⟩ := hf
    have hs : (slash || isListed voidNames tag.name.text) = true := Bool.or_eq_true_iff.2 hs
    rw [html, List.append_assoc, ofHtmlAt_startTag, if_pos hs, ih hrest depth hr, jsx,
      List.append_assoc]
  | element tag children rest ihc ih =>
    obtain ⟨⟨hv, hraw⟩, hchildren, hrest⟩ := hf
    have hv' : ¬ (false || isListed voidNames tag.name.text) = true := by
      rw [hv]
      decide
    rw [html, List.append_assoc, List.append_assoc, List.append_assoc, ofHtmlAt_startTag,
      if_neg hv', hraw, if_neg Bool.false_ne_true,
      ihc hchildren _ (endsText_endTag tag.name (rest.html ++ r)), ofHtmlAt_endTag _ tag _ hv]
    cases hp : isListed verbatimNames tag.name.text with
    | true =>
      rw [if_pos rfl, if_pos rfl, Nat.add_sub_cancel, ih hrest depth hr, jsx, hp]
      simp
    | false =>
      rw [if_neg Bool.false_ne_true, if_neg Bool.false_ne_true, ih hrest depth hr, jsx, hp]
      simp
  | raw tag content rest ih =>
    obtain ⟨⟨hraw, hc⟩, hrest⟩ := hf
    have hv := isListed_voidNames_of_rawNames hraw
    have hv' : ¬ (false || isListed voidNames tag.name.text) = true := by
      rw [hv]
      decide
    have hcut : cutRawText (Text.lower tag.name.text)
        (content ++ (tag.name.endTag ++ (rest.html ++ r))) =
        (content, tag.name.endTag ++ (rest.html ++ r)) := by
      have h := cutRawText_eq (lt_not_mem_name tag.name) hc ('>' :: (rest.html ++ r))
      have e : tag.name.endTag ++ (rest.html ++ r) =
          '<' :: '/' :: tag.name.text ++ '>' :: (rest.html ++ r) := by simp [TagName.endTag]
      rw [e]
      exact h
    rw [html, List.append_assoc, List.append_assoc, List.append_assoc, ofHtmlAt_startTag,
      if_neg hv', hraw, if_pos rfl, hcut]
    dsimp only
    rw [ofHtmlAt_endTag _ tag _ hv, isListed_verbatimNames_of_rawNames hraw,
      if_neg Bool.false_ne_true, ih hrest depth hr, jsx]
    simp

/-- **The conversion of a well-formed tree is the tree as JSX.** -/
theorem ofHtml_html (f : Forest) (hf : f.WellFormed) : ofHtml f.html = f.jsx false := by
  have h := ofHtmlAt_html f hf 0 (r := []) fun c hc => absurd hc (by simp)
  rw [List.append_nil, ofHtmlAt_nil, List.append_nil] at h
  exact h

/-- text around a comment in `pre`, behind an attribute that holds a `>`, and after it a void tag, a
component with braces in its text and a script -/
theorem ofHtml_html_pre :
    let bare (n : TagName) : StartTag := ⟨n, [], [], List.forall_mem_nil _⟩
    let pre : StartTag :=
      { name := ⟨"pre".toList, by decide, List.all_eq_true.1 (by decide)⟩
        attributes :=
          [{ space := [' '], space_ne := by decide,
             space_chars := List.all_eq_true.1 (by decide),
             name := "class".toList, head := by decide,
             chars := List.all_eq_true.1 (by decide),
             value := some ⟨.double, "a>b".toList, by decide⟩ }]
        space := []
        space_chars := List.forall_mem_nil _ }
    let br := bare ⟨"BR".toList, by decide, List.all_eq_true.1 (by decide)⟩
    let widget := bare ⟨"my-widget".toList, by decide, List.all_eq_true.1 (by decide)⟩
    let script := bare ⟨"script".toList, by decide, List.all_eq_true.1 (by decide)⟩
    let f : Forest :=
      .element pre (.text "x\x7b".toList (.comment " < ".toList (.text ['y'] .nil)))
        (.closed br false (.element widget (.text "a > \x7bb\x7d".toList .nil)
          (.raw script "x < '\x7d'".toList .nil)))
    f.html = "<pre class=\"a>b\">x\x7b<!-- < -->y</pre><BR>".toList ++
        "<my-widget>a > \x7bb\x7d</my-widget><script>x < '\x7d'</script>".toList ∧
      f.WellFormed ∧ ofHtml f.html = f.jsx false ∧
      f.jsx false = "<pre className=\"a>b\">\x7b\"x\x7b\"\x7d\x7b\"y\"\x7d</pre><br />".toList ++
        "<MyWidget>a &gt; \x7b\"\x7b\"\x7db\x7b\"\x7d\"\x7d</MyWidget>".toList ++
        "<script>\x7b\"x < '\x7d'\"\x7d</script>".toList := by
  intro bare pre br widget script f
  have hf : f.WellFormed := by decide +kernel
  exact ⟨by decide +kernel, hf, ofHtml_html f hf, by decide +kernel⟩

end Forest

end MarkdownModule.Jsx

import MarkdownModule.Proofs.Html.Reference
import MarkdownModule.Proofs.Jsx.Translation
import MarkdownModule.Proofs.Jsx.Written

/-!
# What a reader of JSX sees of attributes

An attribute is written without a value, or with one in double quotes, in single quotes or without
quotes, and white space may stand around its `=`.  The conversion takes a slash at the end of a tag
for one that closes it, also when it is the end of a value, and drops blanks there.

* `Jsx.SpelledTag`           a start tag of an element that has content
* `Jsx.SpelledTag.Survives`  a reader of JSX sees the attributes of the tag
* `Jsx.SpelledTag.survives_iff`  when that is so
-/

namespace MarkdownModule.Jsx

open Html

/-! ## tags as they are spelled -/

def isBareChar (c : Char) : Bool :=
  !(isSpace c || isQuote c || c = '=' || c = '<' || c = '>' || c = '\x60')

structure BareValue where
  text : Text
  nonempty : text ≠ []
  chars : ∀ c ∈ text, isBareChar c = true

inductive SpelledValue where
  | quoted (v : QuotedValue)
  | bare (v : BareValue)

/-- an `=` with the white space around it, and the value behind it -/
structure Assignment where
  before : Text
  before_chars : ∀ c ∈ before, isSpace c = true
  after : Text
  after_chars : ∀ c ∈ after, isSpace c = true
  value : SpelledValue

structure SpelledAttribute where
  space : Text
  space_ne : space ≠ []
  space_chars : ∀ c ∈ space, isSpace c = true
  name : Text
  head : name.head?.any startsAttribute = true
  chars : ∀ c ∈ name, isNameChar c = true
  assignment : Option Assignment

/-- a start tag of an element that has content: its name, its attributes and the white space behind
them -/
structure SpelledTag where
  name : TagName
  opens : isListed voidNames name.text = false
  attributes : List SpelledAttribute
  space : Text
  space_chars : ∀ c ∈ space, isSpace c = true

def SpelledValue.text : SpelledValue → Text
  | quoted v => v.text
  | bare v => v.text

def SpelledValue.source : SpelledValue → Text
  | quoted v => v.source
  | bare v => v.text

def Assignment.source (a : Assignment) : Text := a.before ++ '=' :: (a.after ++ a.value.source)

namespace SpelledAttribute

def tail (a : SpelledAttribute) : Text := (a.assignment.map Assignment.source).getD []

def source (a : SpelledAttribute) : Text := a.space ++ (a.name ++ a.tail)

/-- an attribute as the conversion is to take it -/
def read (a : SpelledAttribute) : Attribute := ⟨a.name, a.assignment.map fun v => v.value.text⟩

/-- the property that the attribute sets, and the text that is its value -/
def meaning (a : SpelledAttribute) : Text × Option (Option Text) :=
  (attributeName a.name, a.assignment.map fun v => some (decodeReferences v.value.text))

/-- the last character of a value without quotes -/
def bareEnd? (a : SpelledAttribute) : Option Char :=
  match a.assignment with
  | some ⟨_, _, _, _, .bare v⟩ => v.text.getLast?
  | _ => none

end SpelledAttribute

/-- whether the conversion drops a character at the end of a tag, or takes it for a slash that closes
the tag -/
def isLost (c : Char) : Bool := c = '/' || isBlank c

namespace SpelledTag

def body (t : SpelledTag) : Text := t.attributes.flatMap SpelledAttribute.source ++ t.space

def inside (t : SpelledTag) : Text := t.name.text ++ t.body

def source (t : SpelledTag) : Text := '<' :: t.inside ++ ['>']

/-- whether the last attribute has a value without quotes that ends in a slash or a blank -/
def losesEnd (t : SpelledTag) : Bool :=
  (t.attributes.getLast?.bind SpelledAttribute.bareEnd?).any isLost

end SpelledTag

/-! ## what a reader sees -/

/-- the text of a value to a reader of JSX; an object is none -/
def Value.text? : Value → Option Text
  | quoted raw => some (decodeReferences raw)
  | string s => some s
  | object _ => none

def Property.meaning (p : Property) : Text × Option (Option Text) :=
  (p.name, p.value.map Value.text?)

/-- a reader of JSX sees an open tag with the properties that the attributes set, in their order -/
def SpelledTag.Survives (t : SpelledTag) : Prop :=
  ∃ ps, read? (ofHtml t.source) = some [.openTag (tagName t.name.text) ps false] ∧
    ps.map Property.meaning = t.attributes.map SpelledAttribute.meaning

theorem meaning_propertyOf {a : Attribute} (h : attributeName a.name ≠ "style".toList) :
    (propertyOf a).meaning =
      (attributeName a.name, a.value.map fun raw => some (decodeReferences raw)) := by
  unfold Property.meaning propertyOf
  cases a.value with
  | none => rfl
  | some raw =>
    dsimp only [Option.map_some]
    rw [if_neg h]
    split
    · rfl
    · rfl

theorem meaning_propertyOf_style {a : Attribute} (h : attributeName a.name = "style".toList)
    (raw : Text) (hv : a.value = some raw) :
    (propertyOf a).meaning = (attributeName a.name, some none) := by
  unfold Property.meaning propertyOf
  rw [hv]
  dsimp only [Option.map_some]
  rw [if_pos h]
  rfl

/-! ## reading -/

theorem isSpace_of_isBareChar {c : Char} (h : isBareChar c = true) :
    isSpace c = false ∧ isQuote c = false ∧ c ≠ '>' := by
  simp only [isBareChar, Bool.not_eq_true', Bool.or_eq_false_iff, decide_eq_false_iff_not] at h
  exact ⟨h.1.1.1.1.1, h.1.1.1.1.2, h.1.2⟩

/-- a text without white space and without a quote at its start is a value as it stands -/
theorem readAttributeValue_bare {w : Text} (hs : ∀ c ∈ w, isSpace c = false)
    (hq : ∀ c ∈ w.head?, isQuote c = false) {t : Text} (hw : w = [] → t = [])
    (ht : ∀ c ∈ t.head?, isSpace c = true) : readAttributeValue (w ++ t) = (w, t) := by
  cases w with
  | nil =>
    rw [hw rfl]
    rfl
  | cons c r =>
    have hc := hq c rfl
    have hd : (c :: r ++ t).dropWhile isSpace = c :: r ++ t :=
      List.dropWhile_cons_of_neg (by rw [hs c List.mem_cons_self]; exact Bool.false_ne_true)
    obtain ⟨h1, h2⟩ := Text.span_of_forall (p := fun c => !isSpace c) (t := t)
      (fun d hd => by rw [hs d hd]; rfl) fun d hd => by rw [ht d hd]; rfl
    unfold readAttributeValue
    rw [hd]
    split
    · next e => rw [(List.cons.inj e).1] at hc; exact absurd hc (by decide)
    · next e => rw [(List.cons.inj e).1] at hc; exact absurd hc (by decide)
    · exact Prod.ext h1 h2

theorem SpelledValue.readAttributeValue_source (v : SpelledValue) {t : Text}
    (ht : ∀ c ∈ t.head?, isSpace c = true) : readAttributeValue (v.source ++ t) = (v.text, t) := by
  cases v with
  | quoted v => exact Jsx.readAttributeValue_source v t
  | bare v =>
    exact readAttributeValue_bare (fun c hc => (isSpace_of_isBareChar (v.chars c hc)).1)
      (fun c hc => (isSpace_of_isBareChar (v.chars c (List.mem_of_mem_head? hc))).2.1)
      (fun e => absurd e v.nonempty) ht

namespace SpelledAttribute

theorem exists_cons (a : SpelledAttribute) : ∃ c r, a.name = c :: r ∧ isNameChar c = true := by
  have h := a.head
  cases hn : a.name with
  | nil => rw [hn] at h; exact absurd h Bool.false_ne_true
  | cons c r => exact ⟨c, r, rfl, a.chars c (by rw [hn]; exact List.mem_cons_self)⟩

theorem isPropertyName_name (a : SpelledAttribute) : IsPropertyName a.name := by
  obtain ⟨c, r, e, -⟩ := a.exists_cons
  exact ⟨by rw [e]; exact List.cons_ne_nil c r,
    fun c hc => isPropertyChar_of_isNameChar (a.chars c hc)⟩

theorem readAttribute_source (a : SpelledAttribute) {t : Text} (ht : Follows t) :
    readAttribute (a.name ++ a.tail ++ t) = (a.read, t) := by
  unfold read tail
  cases a.assignment with
  | none =>
    rw [Option.map_none, Option.getD_none, List.append_nil]
    exact readAttribute_name a.chars ht
  | some v =>
    have e : a.name ++ v.source ++ t =
        a.name ++ (v.before ++ '=' :: (v.after ++ (v.value.source ++ t))) := by
      simp [Assignment.source]
    rw [Option.map_some, Option.getD_some, e, readAttribute_assigned a.chars v.before_chars,
      readAttributeValue_spaces v.after_chars, v.value.readAttributeValue_source ht.head]
    rfl

/-- an attribute is read up to its value, whatever its value is -/
theorem readAttributes_space (a : SpelledAttribute) (t : Text) :
    readAttributes (a.space ++ (a.name ++ t)) =
      (readAttribute (a.name ++ t)).1 :: readAttributes (readAttribute (a.name ++ t)).2 := by
  obtain ⟨c, r, e, hc⟩ := a.exists_cons
  rw [readAttributes_spaces a.space_chars, e, List.cons_append,
    readAttributes_cons (separatesAttributes_of_isNameChar hc)]

theorem follows_space (a : SpelledAttribute) (t : Text) : Follows (a.space ++ (a.name ++ t)) := by
  obtain ⟨c, r, e, hc⟩ := a.exists_cons
  rw [e]
  exact follows_name a.space_ne a.space_chars hc (r ++ t)

theorem readAttributes_source (as : List SpelledAttribute) {t : Text} (ht : Follows t) :
    readAttributes (as.flatMap source ++ t) = as.map read ++ readAttributes t := by
  induction as with
  | nil => rfl
  | cons a as ih =>
    have hf : Follows (as.flatMap source ++ t) := by
      cases as with
      | nil => exact ht
      | cons b bs =>
        rw [List.flatMap_cons, source, List.append_assoc, List.append_assoc, List.append_assoc]
        exact b.follows_space _
    have e : (a :: as).flatMap source ++ t =
        a.space ++ (a.name ++ (a.tail ++ (as.flatMap source ++ t))) := by
      simp [source]
    rw [e, readAttributes_space, ← List.append_assoc a.name, a.readAttribute_source hf, ih]
    rfl

end SpelledAttribute

/-! ## the tag in JSX -/

theorem quiet_equals : Quiet ['='] := quiet_of_forall (List.forall_mem_singleton.2 (by decide))

theorem SpelledValue.quiet_source (v : SpelledValue) : Quiet v.source := by
  cases v with
  | quoted v => exact quiet_quoted (isQuote_char v.quote) v.free
  | bare v => exact quiet_of_forall fun c hc => (isSpace_of_isBareChar (v.chars c hc)).2

theorem SpelledAttribute.quiet_source (a : SpelledAttribute) : Quiet a.source := by
  refine (StartTag.quiet_of_isSpace a.space_chars).append
    ((StartTag.quiet_of_isNameChar a.chars).append ?_)
  unfold tail
  cases a.assignment with
  | none => exact quiet_nil
  | some v =>
    exact (StartTag.quiet_of_isSpace v.before_chars).append (quiet_equals.append
      ((StartTag.quiet_of_isSpace v.after_chars).append v.value.quiet_source))

theorem SpelledTag.quiet_inside (t : SpelledTag) : Quiet t.inside := by
  have has : ∀ as : List SpelledAttribute, Quiet (as.flatMap SpelledAttribute.source) := by
    intro as
    induction as with
    | nil => exact quiet_nil
    | cons a as ih =>
      rw [List.flatMap_cons]
      exact a.quiet_source.append ih
  exact (StartTag.quiet_of_isNameChar t.name.chars).append
    ((has t.attributes).append (StartTag.quiet_of_isSpace t.space_chars))

theorem SpelledTag.span_inside (t : SpelledTag) :
    t.inside.takeWhile isNameChar = t.name.text ∧ t.inside.dropWhile isNameChar = t.body := by
  refine Text.span_of_forall t.name.chars fun c hc => isNameChar_of_isSpace ?_
  unfold body at hc
  cases has : t.attributes with
  | nil =>
    rw [has] at hc
    exact t.space_chars c (List.mem_of_mem_head? hc)
  | cons a as =>
    rw [has, List.flatMap_cons, SpelledAttribute.source, List.append_assoc, List.append_assoc,
      List.append_assoc] at hc
    exact (a.follows_space _).head c hc

theorem writeRaw_nil (name : Text) : writeRaw name [] = [] := by
  unfold writeRaw writeVerbatim
  rw [decodeReferences]
  exact ite_self _

/-- a start tag alone is written as one token -/
theorem ofHtml_startTag {inside : Text} (ha : inside.head?.any Char.isAlpha = true)
    (hq : Quiet inside) : ofHtml ('<' :: inside ++ ['>']) =
      (startToken (Piece.nameOf inside) (Piece.bodyOf inside)).source := by
  have hrest : (startTagStep 0 inside []).rest = [] :=
    List.eq_nil_of_length_eq_zero (Nat.le_zero.1 (length_startTagStep_rest_le 0 inside []))
  have hwritten : (startPiece inside []).written 0 =
      writeStartTag (Piece.nameOf inside) (Piece.bodyOf inside) := by
    unfold startPiece
    split
    · show writeStartTag _ _ ++ writeRaw _ [] = _
      rw [writeRaw_nil, List.append_nil]
    · rfl
  rw [ofHtml, ofHtmlAt_start 0 [] ha hq, hrest, ofHtmlAt_nil, List.append_nil, startTagStep_eq,
    hwritten, source_startToken]

namespace SpelledTag

/-- what a reader sees depends on how the body of the tag is read -/
theorem survives_iff_body {t : SpelledTag} {b : TagBody} (hb : TagBody.ofText t.body = b)
    (hn : (readAttributes b.attributes).map Attribute.name =
      t.attributes.map SpelledAttribute.name) :
    t.Survives ↔ b.selfClosing = false ∧
      (readAttributes b.attributes).map (fun a => (propertyOf a).meaning) =
        t.attributes.map SpelledAttribute.meaning := by
  have hname : Piece.nameOf t.inside = t.name.text := t.span_inside.1
  have hbody : Piece.bodyOf t.inside = b := by rw [Piece.bodyOf, t.span_inside.2, hb]
  have ha : t.inside.head?.any Char.isAlpha = true := t.name.head_append t.body
  have htag : IsTagName (Piece.nameOf t.inside) := isTagName_nameOf ha
  have hplain : (startToken t.name.text b).Plain := by
    have h := (plain_startToken_iff htag).2 fun n hn' => by
      rw [namesIn, hbody, hn] at hn'
      obtain ⟨a, -, rfl⟩ := List.mem_map.1 hn'
      exact a.isPropertyName_name
    rwa [hname, hbody] at h
  have hread : read? (ofHtml t.source) = some [startToken t.name.text b] := by
    have h := read?_flatMap_source (List.forall_mem_singleton.2 hplain)
    rw [List.flatMap_singleton] at h
    rw [source, ofHtml_startTag ha t.quiet_inside, hname, hbody, h]
  have hclosed : (!opensElement t.name.text b) = b.selfClosing := by
    rw [opensElement, t.opens, Bool.or_false, Bool.not_not]
  unfold Survives
  rw [hread, startToken, hclosed]
  constructor
  · rintro ⟨ps, e, hps⟩
    obtain ⟨-, rfl, hc⟩ := Token.openTag.inj (List.cons.inj (Option.some.inj e)).1
    rw [List.map_map] at hps
    exact ⟨hc, hps⟩
  · rintro ⟨hc, hps⟩
    refine ⟨(readAttributes b.attributes).map propertyOf, by rw [hc], ?_⟩
    rw [List.map_map]
    exact hps

end SpelledTag

/-! ## where the tag ends -/

theorem isLost_of_isNameChar {c : Char} (h : isNameChar c = true) : isLost c = false := by
  simp [isLost, isBlank_of_isNameChar h, (ne_of_isNameChar h).1]

theorem SpelledAttribute.isLost_getLast?_source {a : SpelledAttribute}
    (h : a.bareEnd?.any isLost = false) : ∀ c ∈ a.source.getLast?, isLost c = false := by
  intro c hc
  obtain ⟨d, r, en, -⟩ := a.exists_cons
  unfold source tail at hc
  cases ha : a.assignment with
  | none =>
    rw [ha, Option.map_none, Option.getD_none, List.append_nil,
      Text.getLast?_append_right _ (by rw [en]; exact List.cons_ne_nil d r)] at hc
    exact isLost_of_isNameChar (a.chars c (List.mem_of_getLast? hc))
  | some v =>
    have hne : v.value.source ≠ [] := by
      cases v.value with
      | quoted v => exact List.cons_ne_nil _ _
      | bare v => exact v.nonempty
    have e : a.space ++ (a.name ++ v.source) =
        a.space ++ (a.name ++ (v.before ++ '=' :: v.after)) ++ v.value.source := by
      simp [Assignment.source]
    rw [ha, Option.map_some, Option.getD_some, e, Text.getLast?_append_right _ hne] at hc
    obtain ⟨before, hbefore, after, hafter, value⟩ := v
    cases value with
    | quoted v =>
      have e : (SpelledValue.quoted v).source = v.quote.char :: v.text ++ [v.quote.char] := rfl
      rw [e, List.getLast?_concat, Option.mem_some_iff] at hc
      rw [← hc]
      cases v.quote with
      | double => decide
      | single => decide
    | bare v =>
      unfold bareEnd? at h
      rw [ha] at h
      have hc : v.text.getLast? = some c := hc
      have h : v.text.getLast?.any isLost = false := h
      rw [hc] at h
      exact h

namespace SpelledTag

/-- the body of a tag that loses nothing -/
theorem ofText_body {t : SpelledTag} (h : t.losesEnd = false) :
    TagBody.ofText t.body = ⟨t.attributes.flatMap SpelledAttribute.source, false⟩ := by
  have hlast : ∀ c ∈ (t.attributes.flatMap SpelledAttribute.source).getLast?, isLost c = false := by
    intro c hc
    rcases List.eq_nil_or_concat t.attributes with e | ⟨bs, a, e⟩
    · rw [e] at hc
      cases hc
    · have ha : a.source ≠ [] := fun e => a.space_ne (List.append_eq_nil_iff.1 e).1
      rw [losesEnd, e, List.concat_eq_append, List.getLast?_concat, Option.bind_some] at h
      rw [e, List.concat_eq_append, List.flatMap_append, List.flatMap_singleton,
        Text.getLast?_append_right _ ha] at hc
      exact SpelledAttribute.isLost_getLast?_source h c hc
  have hl : ∀ c ∈ (t.attributes.flatMap SpelledAttribute.source).getLast?,
      c ≠ '/' ∧ isBlank c = false := fun c hc => by
    have := hlast c hc
    simpa [isLost] using this
  have htrim : Text.trimEnd t.body = t.attributes.flatMap SpelledAttribute.source := by
    rw [body, Text.trimEnd_append _ t.space_chars]
    exact Text.dropEndWhile_eq_self fun c hc => (hl c hc).2
  have hslash : Text.endsWith '/' (t.attributes.flatMap SpelledAttribute.source) = false := by
    unfold Text.endsWith
    exact beq_eq_false_iff_ne.2 fun e => (hl '/' e).1 rfl
  unfold TagBody.ofText
  rw [htrim]
  dsimp only
  rw [hslash, Text.dropEndWhile_eq_self fun c hc => decide_eq_false (hl c hc).1]

/-- a tag whose last attribute has a value without quotes -/
structure EndsBare (t : SpelledTag) where
  init : List SpelledAttribute
  last : SpelledAttribute
  before : Text
  before_chars : ∀ c ∈ before, isSpace c = true
  after : Text
  after_chars : ∀ c ∈ after, isSpace c = true
  value : BareValue
  attributes_eq : t.attributes = init ++ [last]
  assignment_eq : last.assignment = some ⟨before, before_chars, after, after_chars, .bare value⟩

theorem exists_endsBare {t : SpelledTag} (h : t.losesEnd = true) :
    ∃ e : EndsBare t, e.value.text.getLast?.any isLost = true := by
  unfold losesEnd at h
  rcases List.eq_nil_or_concat t.attributes with e | ⟨bs, a, e⟩
  · rw [e] at h
    cases h
  rw [List.concat_eq_append] at e
  rw [e, List.getLast?_concat, Option.bind_some, SpelledAttribute.bareEnd?] at h
  split at h
  · next before hbefore after hafter v ha =>
    exact ⟨⟨bs, a, before, hbefore, after, hafter, v, e, ha⟩, h⟩
  · cases h

namespace EndsBare
variable {t : SpelledTag} (e : EndsBare t)

/-- what stands before the last `=` of the body -/
def front : Text := e.init.flatMap SpelledAttribute.source ++ (e.last.space ++ (e.last.name ++ e.before))

theorem body_eq : t.body = e.front ++ ['='] ++ (e.after ++ e.value.text ++ t.space) := by
  unfold body front
  rw [e.attributes_eq, List.flatMap_append, List.flatMap_singleton, SpelledAttribute.source,
    SpelledAttribute.tail, e.assignment_eq]
  simp [Assignment.source, SpelledValue.source]

/-- what is left of the value behind the last `=` -/
theorem trimEnd_value : ∃ after', (∀ c ∈ after', isSpace c = true) ∧
    Text.trimEnd (e.after ++ e.value.text ++ t.space) = after' ++ Text.trimEnd e.value.text := by
  have hblank : ∀ c ∈ e.after, isBlank c = true := fun c hc => isBlank_of_isSpace (e.after_chars c hc)
  rw [Text.trimEnd_append _ t.space_chars]
  by_cases hw : Text.trimEnd e.value.text = []
  · obtain ⟨-, u, hu, hall⟩ := Text.dropEndWhile_eq_iff.1 hw
    refine ⟨[], (fun c hc => absurd hc List.not_mem_nil), ?_⟩
    rw [hw]
    refine Text.dropEndWhile_of_all fun c hc => ?_
    rcases List.mem_append.1 hc with hc | hc
    · exact hblank c hc
    · rw [hu] at hc
      exact hall c hc
  · obtain ⟨hlast, u, hu, hall⟩ := Text.dropEndWhile_eq_iff.1 (rfl : Text.trimEnd e.value.text = _)
    refine ⟨e.after, e.after_chars, Text.dropEndWhile_eq_iff.2 ⟨?_, u, ?_, hall⟩⟩
    · rw [Text.getLast?_append_right _ hw]
      exact hlast
    · rw [List.append_assoc, ← hu]

/-- the value that is read: without the blanks and the slashes at its end -/
def left : Text := Text.dropEndWhile (· = '/') (Text.trimEnd e.value.text)

theorem ofText_body : ∃ after', (∀ c ∈ after', isSpace c = true) ∧ TagBody.ofText t.body =
    ⟨e.front ++ '=' :: (after' ++ e.left), Text.endsWith '/' (Text.trimEnd e.value.text)⟩ := by
  obtain ⟨after', hafter, htrim⟩ := e.trimEnd_value
  refine ⟨after', hafter, ?_⟩
  have hequals : ∀ p : Char → Bool, p '=' = false →
      ∀ c ∈ (e.front ++ ['=']).getLast?, p c = false := fun p hp c hc => by
    rw [List.getLast?_concat] at hc
    rw [← Option.mem_some_iff.1 hc]
    exact hp
  have hspaces : ∀ c ∈ (e.front ++ ['='] ++ after').getLast?, decide (c = '/') = false := by
    intro c hc
    by_cases hn : after' = []
    · rw [hn, List.append_nil] at hc
      exact hequals (fun c => decide (c = '/')) (by decide) c hc
    · rw [Text.getLast?_append_right _ hn] at hc
      refine decide_eq_false ?_
      rintro rfl
      exact absurd (hafter _ (List.mem_of_getLast? hc)) (by decide)
  have hbody : Text.trimEnd t.body =
      e.front ++ ['='] ++ after' ++ Text.trimEnd e.value.text := by
    rw [e.body_eq, Text.trimEnd, Text.dropEndWhile_append_right (hequals isBlank (by decide)),
      ← Text.trimEnd, htrim, List.append_assoc _ after']
  have hslash : Text.endsWith '/' (Text.trimEnd t.body) =
      Text.endsWith '/' (Text.trimEnd e.value.text) := by
    rw [hbody]
    by_cases hw : Text.trimEnd e.value.text = []
    · rw [hw, List.append_nil]
      unfold Text.endsWith
      refine beq_eq_false_iff_ne.2 fun hc => ?_
      exact absurd (hspaces '/' hc) (by decide)
    · unfold Text.endsWith
      rw [Text.getLast?_append_right _ hw]
  unfold TagBody.ofText
  dsimp only
  rw [hslash, hbody, Text.dropEndWhile_append_right hspaces]
  simp [left]

theorem left_prefix : e.left <+: e.value.text := by
  obtain ⟨u, hu, -⟩ := Text.exists_dropEndWhile_append (· = '/') (Text.trimEnd e.value.text)
  obtain ⟨b, hb, -⟩ := Text.exists_dropEndWhile_append isBlank e.value.text
  exact List.IsPrefix.trans ⟨u, hu.symm⟩ ⟨b, hb.symm⟩

theorem readAttributes_front {after' : Text} (h : ∀ c ∈ after', isSpace c = true) :
    readAttributes (e.front ++ '=' :: (after' ++ e.left)) =
      e.init.map SpelledAttribute.read ++ [⟨e.last.name, some e.left⟩] := by
  have hs : e.front ++ '=' :: (after' ++ e.left) = e.init.flatMap SpelledAttribute.source ++
      (e.last.space ++ (e.last.name ++ (e.before ++ '=' :: (after' ++ e.left)))) := by
    simp [front]
  have hchars : ∀ c ∈ e.left, isSpace c = false ∧ isQuote c = false := fun c hc => by
    obtain ⟨h1, h2, -⟩ := isSpace_of_isBareChar (e.value.chars c (e.left_prefix.subset hc))
    exact ⟨h1, h2⟩
  have hvalue : readAttributeValue (after' ++ e.left) = (e.left, []) := by
    have hbare := readAttributeValue_bare (fun c hc => (hchars c hc).1)
      (fun c hc => (hchars c (List.mem_of_mem_head? hc)).2) (t := []) (fun _ => rfl)
      fun c hc => by cases hc
    rw [List.append_nil] at hbare
    rw [readAttributeValue_spaces h, hbare]
  rw [hs, SpelledAttribute.readAttributes_source _ (e.last.follows_space _),
    SpelledAttribute.readAttributes_space, readAttribute_assigned e.last.chars e.before_chars, hvalue,
    readAttributes_nil]

/-- **A value that loses its end is not seen as it was written, or closes the tag.** -/
theorem not_survives (h : e.value.text.getLast?.any isLost = true) : ¬ t.Survives := by
  obtain ⟨after', hafter, hbody⟩ := e.ofText_body
  have hread := e.readAttributes_front hafter
  have hnames : (readAttributes (e.front ++ '=' :: (after' ++ e.left))).map Attribute.name =
      t.attributes.map SpelledAttribute.name := by
    rw [hread, e.attributes_eq, List.map_append, List.map_append, List.map_map]
    rfl
  rw [survives_iff_body hbody hnames]
  rintro ⟨hclosed, hmeaning⟩
  have hlast : ∀ c ∈ (Text.trimEnd e.value.text).getLast?, c ≠ '/' := fun c hc hslash => by
    rw [hslash] at hc
    exact beq_eq_false_iff_ne.1 hclosed hc
  have hleft : e.left = Text.trimEnd e.value.text :=
    Text.dropEndWhile_eq_self fun c hc => decide_eq_false (hlast c hc)
  obtain ⟨hend, b, hb, hblank⟩ := Text.dropEndWhile_eq_iff.1 (rfl : Text.trimEnd e.value.text = _)
  rw [← hleft] at hlast hend hb
  have hseen : (propertyOf ⟨e.last.name, some e.left⟩).meaning = e.last.meaning := by
    rw [hread, e.attributes_eq, List.map_append, List.map_append] at hmeaning
    have hl := congrArg List.getLast? hmeaning
    rw [List.map_singleton, List.map_singleton, List.getLast?_concat, List.getLast?_concat] at hl
    exact Option.some.inj hl
  have hnil : b = [] := by
    have hm : e.last.meaning =
        (attributeName e.last.name, some (some (decodeReferences e.value.text))) := by
      rw [SpelledAttribute.meaning, e.assignment_eq]
      rfl
    rw [hm] at hseen
    by_cases hstyle : attributeName e.last.name = "style".toList
    · rw [meaning_propertyOf_style hstyle e.left rfl] at hseen
      cases (Prod.mk.inj hseen).2
    · rw [meaning_propertyOf hstyle, hb, decodeReferences_append hblank] at hseen
      have hd := Option.some.inj (Option.some.inj (Prod.mk.inj hseen).2)
      exact List.self_eq_append_right.1 hd
  rw [hnil, List.append_nil] at hb
  rw [hb] at h
  cases hc : e.left.getLast? with
  | none => rw [hc] at h; cases h
  | some c =>
    rw [hc] at h
    have hlost : isLost c = true := h
    rw [isLost, hend c hc, decide_eq_false (hlast c hc)] at hlost
    cases hlost

end EndsBare

theorem meaning_read_iff (a : SpelledAttribute) :
    (propertyOf a.read).meaning = a.meaning ↔
      (a.assignment ≠ none → attributeName a.name ≠ "style".toList) := by
  cases ha : a.assignment with
  | none =>
    refine iff_of_true ?_ fun h => absurd rfl h
    unfold SpelledAttribute.read SpelledAttribute.meaning Property.meaning propertyOf
    rw [ha]
    rfl
  | some v =>
    by_cases hs : attributeName a.name = "style".toList
    · refine iff_of_false (fun e => ?_) fun h => h (fun e => by cases e) hs
      have hv : a.read.value = some v.value.text := by
        rw [SpelledAttribute.read, ha]
        rfl
      rw [meaning_propertyOf_style hs _ hv, SpelledAttribute.meaning, ha] at e
      cases (Prod.mk.inj e).2
    · refine iff_of_true ?_ fun _ => hs
      rw [meaning_propertyOf hs, SpelledAttribute.read, SpelledAttribute.meaning, ha]
      rfl

/-- **A reader of JSX sees the attributes of a tag as they are written, unless the last value is written
without quotes and ends in a slash or a blank.**  The style of an element is seen as an object. -/
theorem survives_iff (t : SpelledTag) :
    t.Survives ↔ t.losesEnd = false ∧
      ∀ a ∈ t.attributes, a.assignment ≠ none → attributeName a.name ≠ "style".toList := by
  cases h : t.losesEnd with
  | true =>
    obtain ⟨e, he⟩ := exists_endsBare h
    exact iff_of_false (e.not_survives he) fun h => by cases h.1
  | false =>
    have hread : readAttributes (t.attributes.flatMap SpelledAttribute.source) =
        t.attributes.map SpelledAttribute.read := by
      have hf := SpelledAttribute.readAttributes_source t.attributes
        (follows_spaces (fun c (hc : c ∈ ([] : Text)) => absurd hc List.not_mem_nil))
      rwa [List.append_nil, readAttributes_nil, List.append_nil] at hf
    have hnames : (readAttributes (t.attributes.flatMap SpelledAttribute.source)).map Attribute.name =
        t.attributes.map SpelledAttribute.name := by
      rw [hread, List.map_map]
      rfl
    rw [survives_iff_body (ofText_body h) hnames, hread, List.map_map, List.map_inj_left]
    exact and_congr (iff_of_true rfl rfl) (forall₂_congr fun a _ => meaning_read_iff a)

/-- **A path without quotes at the end of a tag loses its slash, which closes the tag.** -/
theorem not_survives_path :
    let t : SpelledTag :=
      { name := ⟨['a'], by decide, List.all_eq_true.1 (by decide)⟩
        opens := by decide
        attributes :=
          [{ space := [' '], space_ne := by decide, space_chars := List.all_eq_true.1 (by decide)
             name := "href".toList, head := by decide, chars := List.all_eq_true.1 (by decide)
             assignment := some
               { before := [], before_chars := List.all_eq_true.1 (by decide)
                 after := [], after_chars := List.all_eq_true.1 (by decide)
                 value := .bare ⟨"x/".toList, by decide, List.all_eq_true.1 (by decide)⟩ } }]
        space := []
        space_chars := List.all_eq_true.1 (by decide) }
    t.source = "<a href=x/>".toList ∧ ofHtml t.source = "<a href=\"x\" />".toList ∧ ¬ t.Survives := by
  intro t
  have ho : ofHtml t.source = "<a href=\"x\" />".toList := by decide +kernel
  have hr : read? "<a href=\"x\" />".toList =
      some [.openTag ['a'] [⟨"href".toList, some (.quoted ['x'])⟩] true] := by decide +kernel
  refine ⟨by decide, ho, ?_⟩
  rintro ⟨ps, h, -⟩
  rw [ho, hr] at h
  cases (Token.openTag.inj (List.cons.inj (Option.some.inj h)).1).2.2

end SpelledTag

end MarkdownModule.Jsx

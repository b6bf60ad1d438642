import MarkdownModule.Proofs.Html.TagEnd
import MarkdownModule.Proofs.Jsx.Tree
import MarkdownModule.Proofs.Text.Ends

/-!
# Tags are read as they are written

* `Jsx.readAttributes_source`     the attributes of a tag
* `Jsx.StartTag.ofText_body`      what stands behind the name of a tag that may end in a slash
* `Jsx.StartTag.quiet_inside`     no tag ends inside of itself
-/

namespace MarkdownModule.Jsx

open Html

/-! ## characters -/

theorem ne_of_isNameChar {c : Char} (h : isNameChar c = true) : c ≠ '/' ∧ c ≠ '=' ∧ c ≠ '>' :=
  ⟨isNameChar_ne h (by decide), isNameChar_ne h (by decide), isNameChar_ne h (by decide)⟩

theorem isSpace_of_isNameChar {c : Char} (h : isNameChar c = true) : isSpace c = false := by
  cases hs : isSpace c with
  | false => rfl
  | true =>
    have := isBlank_of_isSpace hs
    rw [isBlank_of_isNameChar h] at this
    exact this.symm

theorem isNameChar_of_isSpace {c : Char} (h : isSpace c = true) : isNameChar c = false :=
  isNameChar_of_isBlank (isBlank_of_isSpace h)

theorem isAttributeNameChar_of_isNameChar {c : Char} (h : isNameChar c = true) :
    isAttributeNameChar c = true := by
  obtain ⟨h1, h2, -⟩ := ne_of_isNameChar h
  simp [isAttributeNameChar, isSpace_of_isNameChar h, h1, h2]

theorem separatesAttributes_of_isNameChar {c : Char} (h : isNameChar c = true) :
    separatesAttributes c = false := by
  simp [separatesAttributes, isSpace_of_isNameChar h, (ne_of_isNameChar h).1]

theorem isQuote_char (q : Quote) : isQuote q.char = true := by cases q <;> rfl

/-! ## attributes -/

theorem readAttributes_nil : readAttributes [] = [] := by rw [readAttributes]

theorem readAttributes_spaces {s : Text} (h : ∀ c ∈ s, isSpace c = true) (t : Text) :
    readAttributes (s ++ t) = readAttributes t := by
  induction s with
  | nil => rfl
  | cons c s ih =>
    obtain ⟨hc, hs⟩ := List.forall_mem_cons.1 h
    rw [List.cons_append, readAttributes, dif_pos (by simp [separatesAttributes, hc]), ih hs]

theorem readAttributeValue_source (v : QuotedValue) (t : Text) :
    readAttributeValue (v.source ++ t) = (v.text, t) := by
  obtain ⟨q, s, hs⟩ := v
  have hq : ∀ c, isQuote c = true → isSpace c = false := by
    intro c hc
    simp only [isQuote, Bool.or_eq_true, decide_eq_true_eq] at hc
    rcases hc with rfl | rfl <;> decide
  have hspan : (s ++ q.char :: t).takeWhile (· ≠ q.char) = s ∧
      (s ++ q.char :: t).dropWhile (· ≠ q.char) = q.char :: t := by
    refine Text.span_of_forall (fun c hc => ?_) (fun c hc => ?_)
    · exact decide_eq_true fun e => hs (e ▸ hc)
    · rw [List.head?_cons, Option.mem_some_iff] at hc
      rw [hc]
      exact decide_eq_false fun h => h rfl
  have e : QuotedValue.source ⟨q, s, hs⟩ ++ t = q.char :: (s ++ q.char :: t) := by
    simp [QuotedValue.source]
  have hd : (q.char :: (s ++ q.char :: t)).dropWhile isSpace = q.char :: (s ++ q.char :: t) :=
    List.dropWhile_cons_of_neg (by rw [hq _ (isQuote_char q)]; exact Bool.false_ne_true)
  rw [e]
  unfold readAttributeValue
  rw [hd]
  cases q with
  | double => exact Prod.ext hspan.1 (congrArg (List.drop 1) hspan.2)
  | single => exact Prod.ext hspan.1 (congrArg (List.drop 1) hspan.2)

/-- a text behind an attribute: it begins with white space, and what follows that is no `=` -/
structure Follows (t : Text) : Prop where
  head : ∀ c ∈ t.head?, isSpace c = true
  next : ∀ c ∈ (t.dropWhile isSpace).head?, c ≠ '='

theorem readAttributes_cons {c : Char} (hc : separatesAttributes c = false) (r : Text) :
    readAttributes (c :: r) =
      (readAttribute (c :: r)).1 :: readAttributes (readAttribute (c :: r)).2 := by
  rw [readAttributes, dif_neg (by rw [hc]; exact Bool.false_ne_true)]

theorem readAttributeValue_spaces {s : Text} (h : ∀ c ∈ s, isSpace c = true) (t : Text) :
    readAttributeValue (s ++ t) = readAttributeValue t := by
  have hd : (s ++ t).dropWhile isSpace = t.dropWhile isSpace := by
    induction s with
    | nil => rfl
    | cons c s ih =>
      obtain ⟨hc, hs⟩ := List.forall_mem_cons.1 h
      rw [List.cons_append, List.dropWhile_cons_of_pos hc, ih hs]
  rw [readAttributeValue, hd, readAttributeValue]

section
variable {n : Text} (hn : ∀ c ∈ n, isNameChar c = true)
include hn

/-- a name in front of other white space than that before an `=` is an attribute without a value -/
theorem readAttribute_name {t : Text} (ht : Follows t) : readAttribute (n ++ t) = (⟨n, none⟩, t) := by
  obtain ⟨h1, h2⟩ := Text.span_of_forall (t := t)
    (fun c hc => isAttributeNameChar_of_isNameChar (hn c hc))
    fun c hc => by simp [isAttributeNameChar, ht.head c hc]
  unfold readAttribute
  rw [h1, h2]
  dsimp only
  split
  · next e => exact absurd rfl (ht.next '=' (by rw [e]; rfl))
  · rfl

/-- a name in front of an `=` is an attribute with a value -/
theorem readAttribute_assigned {before : Text} (hb : ∀ c ∈ before, isSpace c = true) (r : Text) :
    readAttribute (n ++ (before ++ '=' :: r)) =
      (⟨n, some (readAttributeValue r).1⟩, (readAttributeValue r).2) := by
  have hhead : ∀ c ∈ (before ++ '=' :: r).head?, isAttributeNameChar c = false := fun c hc => by
    cases hbefore : before with
    | nil =>
      rw [hbefore] at hc
      rw [← Option.mem_some_iff.1 hc]
      decide
    | cons d s =>
      rw [hbefore] at hc hb
      rw [← Option.mem_some_iff.1 hc]
      simp [isAttributeNameChar, hb d List.mem_cons_self]
  obtain ⟨h1, h2⟩ := Text.span_of_forall
    (fun c hc => isAttributeNameChar_of_isNameChar (hn c hc)) hhead
  have hd : (before ++ '=' :: r).dropWhile isSpace = '=' :: r :=
    (Text.span_cons_of_forall hb (by decide) r).2
  unfold readAttribute
  rw [h1, h2]
  dsimp only
  rw [hd]
  rfl

end

theorem TagAttribute.readAttribute_source (a : TagAttribute) {t : Text} (ht : Follows t) :
    readAttribute (a.name ++ valueSource a.value ++ t) = (a.read, t) := by
  unfold read
  cases a.value with
  | none =>
    rw [valueSource, List.append_nil]
    exact readAttribute_name a.chars ht
  | some v =>
    have h := readAttribute_assigned a.chars (fun c (hc : c ∈ ([] : Text)) => absurd hc List.not_mem_nil) (v.source ++ t)
    rw [readAttributeValue_source] at h
    rw [valueSource, List.append_assoc]
    exact h

theorem TagAttribute.exists_cons (a : TagAttribute) :
    ∃ c r, a.name = c :: r ∧ isNameChar c = true := by
  have h := a.head
  cases hn : a.name with
  | nil => rw [hn] at h; exact absurd h Bool.false_ne_true
  | cons c r => exact ⟨c, r, rfl, a.chars c (by rw [hn]; exact List.mem_cons_self)⟩

theorem follows_spaces {s : Text} (h : ∀ c ∈ s, isSpace c = true) : Follows s where
  head c hc := h c (List.mem_of_mem_head? hc)
  next c hc := by
    have hd := (Text.span_of_forall (t := []) h fun c hc => absurd hc (by simp)).2
    rw [List.append_nil] at hd
    rw [hd] at hc
    exact absurd hc (by simp)

/-- white space in front of a name -/
theorem follows_name {s : Text} (hs : s ≠ []) (h : ∀ c ∈ s, isSpace c = true) {c : Char}
    (hc : isNameChar c = true) (t : Text) : Follows (s ++ c :: t) where
  head d hd := by
    cases s with
    | nil => exact absurd rfl hs
    | cons e r =>
      rw [← Option.mem_some_iff.1 hd]
      exact h e List.mem_cons_self
  next d hd := by
    have hspan := (Text.span_cons_of_forall h (isSpace_of_isNameChar hc) t).2
    rw [hspan] at hd
    rw [← Option.mem_some_iff.1 hd]
    exact (ne_of_isNameChar hc).2.1

theorem follows_source (a : TagAttribute) (t : Text) : Follows (a.source ++ t) := by
  obtain ⟨c, r, e, hc⟩ := a.exists_cons
  have es : a.source ++ t = a.space ++ c :: (r ++ valueSource a.value ++ t) := by
    simp [TagAttribute.source, e]
  rw [es]
  exact follows_name a.space_ne a.space_chars hc _

theorem follows_attributes (as : List TagAttribute) {s : Text} (h : ∀ c ∈ s, isSpace c = true) :
    Follows (as.flatMap TagAttribute.source ++ s) := by
  cases as with
  | nil => exact follows_spaces h
  | cons a as =>
    rw [List.flatMap_cons, List.append_assoc]
    exact follows_source a _

/-- **Attributes are read as they are written.** -/
theorem readAttributes_source (as : List TagAttribute) {s : Text}
    (h : ∀ c ∈ s, isSpace c = true) :
    readAttributes (as.flatMap TagAttribute.source ++ s) = as.map TagAttribute.read := by
  induction as with
  | nil =>
    have e := readAttributes_spaces h []
    rw [List.append_nil, readAttributes_nil] at e
    exact e
  | cons a as ih =>
    obtain ⟨c, r, e, hc⟩ := a.exists_cons
    have ha := a.readAttribute_source (follows_attributes as h)
    have es : (a :: as).flatMap TagAttribute.source ++ s =
        a.space ++ (a.name ++ valueSource a.value ++ (as.flatMap TagAttribute.source ++ s)) := by
      simp [TagAttribute.source]
    rw [es, readAttributes_spaces a.space_chars]
    rw [e, List.cons_append, List.cons_append] at ha ⊢
    rw [readAttributes_cons (separatesAttributes_of_isNameChar hc), ha, ih, List.map_cons]

/-! ## the body of a tag -/

theorem TagAttribute.getLast?_source (a : TagAttribute) :
    ∀ c ∈ a.source.getLast?, isBlank c = false ∧ c ≠ '/' := by
  intro c hc
  unfold source at hc
  cases hv : a.value with
  | none =>
    obtain ⟨d, r, e, -⟩ := a.exists_cons
    rw [hv, valueSource, List.append_nil, Text.getLast?_append_right _ (by rw [e]; simp)] at hc
    have hn := a.chars c (List.mem_of_getLast? hc)
    exact ⟨isBlank_of_isNameChar hn, (ne_of_isNameChar hn).1⟩
  | some v =>
    have es : a.space ++ a.name ++ valueSource (some v) =
        (a.space ++ a.name ++ '=' :: v.quote.char :: v.text) ++ [v.quote.char] := by
      simp [valueSource, QuotedValue.source]
    rw [hv, es, List.getLast?_concat, Option.mem_some_iff] at hc
    rw [← hc]
    cases v.quote with
    | double => decide
    | single => decide

theorem getLast?_attributes (as : List TagAttribute) :
    ∀ c ∈ (as.flatMap TagAttribute.source).getLast?, isBlank c = false ∧ c ≠ '/' := by
  intro c hc
  rcases List.eq_nil_or_concat as with rfl | ⟨bs, a, rfl⟩
  · exact absurd hc (by simp)
  · have ha : a.source ≠ [] := by
      intro e
      exact a.space_ne (List.append_eq_nil_iff.1 (List.append_eq_nil_iff.1 e).1).1
    rw [List.concat_eq_append, List.flatMap_append, List.flatMap_singleton, Text.getLast?_append_right _ ha] at hc
    exact a.getLast?_source c hc

namespace StartTag

theorem ofText_body (t : StartTag) (slash : Bool) :
    ∃ s, (∀ c ∈ s, isSpace c = true) ∧
      TagBody.ofText (t.body slash) = ⟨t.attributes.flatMap TagAttribute.source ++ s, slash⟩ := by
  have hl := getLast?_attributes t.attributes
  unfold body TagBody.ofText
  generalize t.attributes.flatMap TagAttribute.source = a at hl
  cases slash with
  | false =>
    have ht : Text.trimEnd (a ++ t.space ++ []) = a := by
      rw [List.append_nil, Text.trimEnd_append a t.space_chars]
      exact Text.dropEndWhile_eq_self fun c hc => (hl c hc).1
    have hs : Text.endsWith '/' a = false := by
      unfold Text.endsWith
      refine beq_eq_false_iff_ne.2 fun e => ?_
      exact (hl '/' e).2 rfl
    refine ⟨[], fun c hc => absurd hc List.not_mem_nil, ?_⟩
    dsimp only
    rw [if_neg Bool.false_ne_true, ht, hs, List.append_nil,
      Text.dropEndWhile_eq_self fun c hc => decide_eq_false (hl c hc).2]
  | true =>
    have hlast : ∀ c ∈ (a ++ t.space).getLast?, c ≠ '/' := by
      intro c hc
      by_cases hn : t.space = []
      · rw [hn, List.append_nil] at hc
        exact (hl c hc).2
      · rw [Text.getLast?_append_right _ hn] at hc
        rintro rfl
        exact absurd (t.space_chars _ (List.mem_of_getLast? hc)) (by decide)
    have ht : Text.trimEnd (a ++ t.space ++ ['/']) = a ++ t.space ++ ['/'] := by
      refine Text.dropEndWhile_eq_self fun c hc => ?_
      rw [List.getLast?_concat, Option.mem_some_iff] at hc
      rw [← hc]
      decide
    have hd : Text.dropEndWhile (· = '/') (a ++ t.space ++ ['/']) = a ++ t.space := by
      rw [Text.dropEndWhile_append _ (by simp),
        Text.dropEndWhile_eq_self fun c hc => decide_eq_false (hlast c hc)]
    have hs : Text.endsWith '/' (a ++ t.space ++ ['/']) = true := by
      unfold Text.endsWith
      rw [List.getLast?_concat]
      exact beq_iff_eq.2 rfl
    refine ⟨t.space, t.space_chars, ?_⟩
    dsimp only
    rw [if_pos rfl, ht, hd, hs]

theorem selfClosing_body (t : StartTag) (slash : Bool) :
    (TagBody.ofText (t.body slash)).selfClosing = slash := by
  obtain ⟨s, -, e⟩ := t.ofText_body slash
  rw [e]

theorem writeAttributes_body (t : StartTag) (slash : Bool) :
    writeAttributes (TagBody.ofText (t.body slash)).attributes =
      t.attributes.flatMap fun a => writeAttribute a.read := by
  obtain ⟨s, hs, e⟩ := t.ofText_body slash
  rw [e, writeAttributes, readAttributes_source t.attributes hs, List.flatMap_map]

/-! ## the inside of a tag -/

theorem head?_body (t : StartTag) (slash : Bool) :
    ∀ c ∈ (t.body slash).head?, isNameChar c = false := by
  intro c hc
  unfold body at hc
  rw [List.append_assoc] at hc
  cases ha : t.attributes with
  | cons a as =>
    rw [ha, List.flatMap_cons, List.append_assoc] at hc
    exact isNameChar_of_isSpace ((follows_source a _).head c hc)
  | nil =>
    rw [ha, List.flatMap_nil, List.nil_append] at hc
    cases hs : t.space with
    | cons d r =>
      rw [hs, List.cons_append, List.head?_cons, Option.mem_some_iff] at hc
      rw [← hc]
      exact isNameChar_of_isSpace (t.space_chars d (by rw [hs]; exact List.mem_cons_self))
    | nil =>
      rw [hs] at hc
      cases slash with
      | false => exact absurd hc (by simp)
      | true =>
        simp only [if_true, List.nil_append, List.head?_cons, Option.mem_some_iff] at hc
        rw [← hc]
        decide

theorem span_inside (t : StartTag) (slash : Bool) :
    (t.inside slash).takeWhile isNameChar = t.name.text ∧
      (t.inside slash).dropWhile isNameChar = t.body slash :=
  Text.span_of_forall t.name.chars (t.head?_body slash)

theorem quiet_of_isNameChar {s : Text} (h : ∀ c ∈ s, isNameChar c = true) : Quiet s :=
  quiet_of_forall fun c hc => ⟨isQuote_of_isNameChar (h c hc), (ne_of_isNameChar (h c hc)).2.2⟩

theorem quiet_of_isSpace {s : Text} (h : ∀ c ∈ s, isSpace c = true) : Quiet s := by
  refine quiet_of_forall fun c hc => ?_
  have hs := h c hc
  simp only [isSpace, Bool.or_eq_true, decide_eq_true_eq] at hs
  rcases hs with (((rfl | rfl) | rfl) | rfl) | rfl <;> decide

theorem quiet_valueSource (v : Option QuotedValue) : Quiet (valueSource v) := by
  cases v with
  | none => exact quiet_nil
  | some v =>
    have he : Quiet ['='] := by
      refine quiet_of_forall fun c hc => ?_
      rw [List.mem_singleton] at hc
      subst hc
      decide
    exact he.append (quiet_quoted (isQuote_char v.quote) v.free)

theorem quiet_attributes (as : List TagAttribute) : Quiet (as.flatMap TagAttribute.source) := by
  induction as with
  | nil => exact quiet_nil
  | cons a as ih =>
    rw [List.flatMap_cons]
    exact (((quiet_of_isSpace a.space_chars).append (quiet_of_isNameChar a.chars)).append
      (quiet_valueSource a.value)).append ih

theorem quiet_inside (t : StartTag) (slash : Bool) : Quiet (t.inside slash) := by
  have hs : Quiet (if slash then ['/'] else []) := by
    cases slash with
    | false => exact quiet_nil
    | true =>
      refine quiet_of_forall fun c hc => ?_
      rw [if_pos rfl, List.mem_singleton] at hc
      subst hc
      decide
  exact (quiet_of_isNameChar t.name.chars).append
    (((quiet_attributes t.attributes).append (quiet_of_isSpace t.space_chars)).append hs)

end StartTag

end MarkdownModule.Jsx

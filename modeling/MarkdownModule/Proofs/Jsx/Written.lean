import MarkdownModule.Proofs.Component.Binding
import MarkdownModule.Proofs.Jsx.Piece
import MarkdownModule.Proofs.Jsx.Reading

/-!
# The tokens of a document

What is written for a piece of a document is a row of tokens: at most one tag, and the text behind it.

* `Jsx.tokens`                      the tokens of a document
* `Jsx.flatMap_source_tokens`       the tokens put together are the document in JSX
* `Jsx.read?_ofHtml_iff`            the document in JSX is read as its tokens when no tag of it is left
                                    open and its attributes have plain names, and not otherwise
-/

namespace MarkdownModule.Jsx

/-! ## names -/

theorem isNameChar_of_isAlpha {c : Char} (h : c.isAlpha = true) : Html.isNameChar c = true := by
  simp [Html.isNameChar, Char.isAlphanum, h]

theorem isNameChar_toLower (c : Char) : Html.isNameChar c.toLower = Html.isNameChar c := by
  by_cases h : c.isUpper = true
  · have ha : c.isAlpha = true := Bool.or_eq_true_iff.2 (.inl h)
    rw [isNameChar_of_isAlpha ha, isNameChar_of_isAlpha]
    rw [Char.isAlpha_toLower_eq_isAlpha, ha]
  · rw [Char.toLower_eq_of_not_isUpper h]

theorem isTagName_lower {name : Text} (h : IsTagName name) : IsTagName (Text.lower name) := by
  refine ⟨?_, fun c hc => ?_⟩
  · cases name with
    | nil => exact h.1
    | cons c r => exact (Char.isAlpha_toLower_eq_isAlpha c).trans h.1
  · obtain ⟨d, hd, rfl⟩ := List.mem_map.1 hc
    rw [isNameChar_toLower]
    exact h.2 d hd

/-- the tag of a component or of an element has a name that JSX reads as one -/
theorem isTagName_tagName {name : Text} (h : IsTagName name) : IsTagName (tagName name) := by
  unfold tagName
  split
  · have hupper := Naming.isUpper_head_pascal h.1
    have hchars : ∀ c ∈ Naming.pascal name, Html.isNameChar c = true := fun c hc => by
      simp [Html.isNameChar, Naming.isAlphanum_of_mem_pascal hc]
    have hhead : (Naming.pascal name).head?.any Char.isAlpha = true := by
      cases hp : Naming.pascal name with
      | nil => rw [hp] at hupper; exact hupper
      | cons c r =>
        rw [hp] at hupper
        exact Bool.or_eq_true_iff.2 (.inl hupper)
    unfold Script.bindingFor
    split
    · refine ⟨?_, fun c hc => ?_⟩
      · cases hp : Naming.pascal name with
        | nil => rw [hp] at hhead; exact absurd hhead Bool.false_ne_true
        | cons c r => rw [hp] at hhead; exact hhead
      · rcases List.mem_append.1 hc with hc | hc
        · exact hchars c hc
        · rw [List.mem_singleton.1 hc]
          decide
    · exact ⟨hhead, hchars⟩
  · exact isTagName_lower h

theorem isPropertyChar_of_isNameChar {c : Char} (hn : Html.isNameChar c = true) :
    isPropertyChar c = true := by
  have hne : ∀ d : Char, Html.isNameChar d = false → c ≠ d := fun d => Html.isNameChar_ne hn
  refine isPropertyChar_eq_true.2 ⟨?_, ?_, hne _ (by decide), hne _ (by decide),
    Html.isQuote_of_isNameChar hn⟩
  · simp [Script.isGap, Html.isBlank_of_isNameChar hn, hne '\uFEFF' (by decide)]
  · simp [isSpecial, hne '<' (by decide), hne '>' (by decide), hne '\x7b' (by decide),
      hne '\x7d' (by decide)]

/-- a character that stands in no property name is no letter -/
theorem toLower_eq_iff {c d : Char} (hc : isPropertyChar c = false) : d.toLower = c ↔ d = c := by
  have hupper : ∀ e : Char, e.isUpper = true → e.toLower ≠ c ∧ e ≠ c := by
    intro e he
    have ha : e.isAlpha = true := Bool.or_eq_true_iff.2 (.inl he)
    have hl : e.toLower.isAlpha = true := by rw [Char.isAlpha_toLower_eq_isAlpha, ha]
    constructor
    · rintro rfl
      rw [isPropertyChar_of_isNameChar (isNameChar_of_isAlpha hl)] at hc
      cases hc
    · rintro rfl
      rw [isPropertyChar_of_isNameChar (isNameChar_of_isAlpha ha)] at hc
      cases hc
  by_cases hd : d.isUpper = true
  · exact ⟨fun e => absurd e (hupper d hd).1, fun e => absurd e (hupper d hd).2⟩
  · rw [Char.toLower_eq_of_not_isUpper hd]

theorem mem_lower_iff {c : Char} (hc : isPropertyChar c = false) (n : Text) :
    c ∈ Text.lower n ↔ c ∈ n := by
  rw [Text.lower, List.mem_map]
  constructor
  · rintro ⟨d, hd, e⟩
    rwa [← (toLower_eq_iff hc).1 e]
  · intro h
    exact ⟨c, h, (toLower_eq_iff hc).2 rfl⟩

theorem isPropertyName_iff {s : Text} :
    IsPropertyName s ↔ s ≠ [] ∧ ∀ c, isPropertyChar c = false → c ∉ s := by
  refine and_congr_right fun _ => ⟨fun h c hc hm => ?_, fun h c hm => ?_⟩
  · rw [h c hm] at hc
    cases hc
  · by_contra hc
    exact h c (Bool.eq_false_iff.2 hc) hm

theorem isPropertyName_lower_iff (n : Text) : IsPropertyName (Text.lower n) ↔ IsPropertyName n := by
  rw [isPropertyName_iff, isPropertyName_iff]
  refine and_congr (not_congr List.map_eq_nil_iff) ?_
  exact forall_congr' fun c => forall_congr' fun hc => not_congr (mem_lower_iff hc n)

/-- a property has the name of its attribute in lower case, or both are names of the table -/
theorem attributeName_cases (n : Text) : attributeName n = Text.lower n ∨
    IsPropertyName (Text.lower n) ∧ IsPropertyName (attributeName n) := by
  have hall : ∀ p ∈ propertyNames, (p.1.toList ≠ [] ∧ p.1.toList.all isPropertyChar = true) ∧
      p.2.toList ≠ [] ∧ p.2.toList.all isPropertyChar = true := by decide +kernel
  unfold attributeName
  dsimp only
  split
  · exact .inl rfl
  · cases hl : propertyNames.lookup (String.ofList (Text.lower n)) with
    | none => exact .inl rfl
    | some v =>
      obtain ⟨l₁, l₂, e, -⟩ := List.lookup_eq_some_iff.1 hl
      obtain ⟨⟨h1, h2⟩, h3, h4⟩ := hall (String.ofList (Text.lower n), v) (by rw [e]; simp)
      rw [String.toList_ofList] at h1 h2
      exact .inr ⟨⟨h1, List.all_eq_true.1 h2⟩, h3, List.all_eq_true.1 h4⟩

theorem isPropertyName_attributeName_iff (n : Text) :
    IsPropertyName (attributeName n) ↔ IsPropertyName n := by
  rw [← isPropertyName_lower_iff n]
  rcases attributeName_cases n with e | ⟨h1, h2⟩
  · rw [e]
  · exact iff_of_true h2 h1

theorem mem_attributeName_iff {c : Char} (hc : isPropertyChar c = false) (n : Text) :
    c ∈ attributeName n ↔ c ∈ n := by
  rw [← mem_lower_iff hc n]
  rcases attributeName_cases n with e | ⟨h1, h2⟩
  · rw [e]
  · exact iff_of_false ((isPropertyName_iff.1 h2).2 c hc) ((isPropertyName_iff.1 h1).2 c hc)

/-! ## tags -/

def propertyOf (a : Html.Attribute) : Property where
  name := attributeName a.name
  value := a.value.map fun raw =>
    if attributeName a.name = "style".toList then
      .object ((readDeclarations (Html.decodeReferences raw)).map fun d =>
        (stylePropertyName d.1, d.2))
    else if raw.contains '"' then .string (Html.decodeReferences raw)
    else .quoted raw

theorem objectSource_readDeclarations (css : Text) :
    objectSource ((readDeclarations css).map fun d => (stylePropertyName d.1, d.2)) =
      styleObject css := by
  unfold objectSource styleObject
  cases h : readDeclarations css with
  | nil => rfl
  | cons d ds =>
    rw [List.map_cons, List.isEmpty_cons, if_neg Bool.false_ne_true]
    have e : (d :: ds).map styleEntry =
        ((d :: ds).map fun d => (stylePropertyName d.1, d.2)).map memberSource := by
      rw [List.map_map]
      rfl
    dsimp only
    rw [e]
    rfl

theorem write_propertyOf (a : Html.Attribute) :
    (propertyOf a).write Value.source = writeAttribute a := by
  unfold writeAttribute Property.write propertyOf
  cases a.value with
  | none => exact List.append_nil _
  | some raw =>
    dsimp only [Option.map_some]
    split
    · show _ ++ '=' :: container (objectSource _) = _
      rw [objectSource_readDeclarations]
    split
    · rfl
    · simp [Value.source]

def startToken (name : Text) (b : TagBody) : Token :=
  .openTag (tagName name) ((Html.readAttributes b.attributes).map propertyOf)
    (!opensElement name b)

theorem source_startToken (name : Text) (b : TagBody) :
    (startToken name b).source = writeStartTag name b := by
  have hp : ((Html.readAttributes b.attributes).map propertyOf).flatMap
      (Property.write Value.source) = writeAttributes b.attributes := by
    rw [List.flatMap_map, writeAttributes]
    exact congrArg (List.flatMap · _) (funext write_propertyOf)
  unfold startToken writeStartTag
  rw [Token.source, Token.write, hp]
  cases opensElement name b <;> rfl

def endTokens (name : Text) : List Token :=
  if Html.isListed voidNames name then [] else [.closeTag (tagName name)]

theorem source_endTokens (name : Text) :
    (endTokens name).flatMap Token.source = writeEndTag name := by
  unfold endTokens writeEndTag
  split
  · rfl
  · exact List.append_nil _

/-! ## text -/

def charTokens (c : Char) : List Token :=
  if c = '\x7b' || c = '\x7d' then [.string [c]]
  else if c = '>' then "&gt;".toList.map .char
  else [.char c]

def stringTokens (s : Text) : List Token := if s.isEmpty then [] else [.string s]

/-- the tokens of text at a depth in verbatim elements -/
def runTokens (depth : Nat) (s : Text) : List Token :=
  if 0 < depth then stringTokens (Html.decodeReferences s) else s.flatMap charTokens

def rawTokens (name content : Text) : List Token :=
  if Text.lower name = "textarea".toList then stringTokens (Html.decodeReferences content)
  else stringTokens content

theorem source_charTokens (c : Char) : (charTokens c).flatMap Token.source = textChar c := by
  unfold charTokens textChar
  by_cases h1 : c = '\x7b'
  · rw [h1]
    decide
  by_cases h2 : c = '\x7d'
  · rw [h2]
    decide
  rw [if_neg (by simp [h1, h2]), if_neg h1, if_neg h2]
  split
  · decide
  · rfl

theorem source_flatMap_charTokens (s : Text) :
    (s.flatMap charTokens).flatMap Token.source = writeText s := by
  rw [List.flatMap_assoc, writeText]
  exact congrArg (List.flatMap · s) (funext source_charTokens)

theorem source_stringTokens (s : Text) : (stringTokens s).flatMap Token.source = writeString s := by
  unfold stringTokens writeString
  split
  · rfl
  · exact List.append_nil _

theorem source_runTokens (depth : Nat) (s : Text) : (runTokens depth s).flatMap Token.source =
    if 0 < depth then writeVerbatim s else writeText s := by
  unfold runTokens
  split
  · exact source_stringTokens _
  · exact source_flatMap_charTokens s

theorem source_rawTokens (name content : Text) :
    (rawTokens name content).flatMap Token.source = writeRaw name content := by
  unfold rawTokens writeRaw
  split
  · exact source_stringTokens _
  · exact source_stringTokens _

/-! ## pieces -/

namespace Piece

/-- the tag that is written for a piece, if one is -/
def tagTokens : Piece → List Token
  | endTag inside => endTokens (nameOf inside)
  | startTag inside => [startToken (nameOf inside) (bodyOf inside)]
  | rawElement inside _ => [startToken (nameOf inside) (bodyOf inside)]
  | _ => []

def textTokens (depth : Nat) : Piece → List Token
  | text s => runTokens depth s
  | stray => [.string ['<']]
  | rawElement inside content => rawTokens (nameOf inside) content
  | unfinished s => ('<' :: s).flatMap charTokens
  | _ => []

def tokens (depth : Nat) (p : Piece) : List Token := p.tagTokens ++ p.textTokens depth

theorem source_tokens (depth : Nat) (p : Piece) :
    (p.tokens depth).flatMap Token.source = p.written depth := by
  unfold tokens
  rw [List.flatMap_append]
  cases p with
  | text s => exact source_runTokens depth s
  | comment s => rfl
  | declaration s => rfl
  | stray => rfl
  | endTag inside => exact (List.append_nil _).trans (source_endTokens _)
  | startTag inside =>
    exact (List.append_nil _).trans ((List.append_nil _).trans (source_startToken _ _))
  | rawElement inside content =>
    exact congrArg₂ (· ++ ·) ((List.append_nil _).trans (source_startToken _ _))
      (source_rawTokens _ content)
  | unfinished s => exact source_flatMap_charTokens ('<' :: s)

end Piece

/-! ## documents -/

/-- a piece and its depth in verbatim elements -/
structure Placed where
  depth : Nat
  piece : Piece
deriving DecidableEq

def Placed.tokens (x : Placed) : List Token := x.piece.tokens x.depth

/-- the pieces behind a place of a depth, each with its own depth -/
def placedFrom (depth : Nat) : List Piece → List Placed
  | [] => []
  | p :: ps => ⟨depth, p⟩ :: placedFrom (p.depthAfter depth) ps

def placed (html : Text) : List Placed := placedFrom 0 (pieces html)

def tokens (html : Text) : List Token := (placed html).flatMap Placed.tokens

theorem source_placedFrom (depth : Nat) (ps : List Piece) :
    ((placedFrom depth ps).flatMap Placed.tokens).flatMap Token.source = writePieces depth ps := by
  induction ps generalizing depth with
  | nil => rfl
  | cons p ps ih =>
    rw [placedFrom, List.flatMap_cons, List.flatMap_append, ih, Placed.tokens, Piece.source_tokens,
      writePieces]

/-- **The tokens of a document put together are the document in JSX.** -/
theorem flatMap_source_tokens (html : Text) : (tokens html).flatMap Token.source = ofHtml html := by
  rw [tokens, placed, source_placedFrom, ofHtml_eq_writePieces]

theorem map_piece_placedFrom (depth : Nat) (ps : List Piece) :
    (placedFrom depth ps).map Placed.piece = ps := by
  induction ps generalizing depth with
  | nil => rfl
  | cons p ps ih => rw [placedFrom, List.map_cons, ih]

/-- a property of pieces that does not look at their places -/
theorem forall_placed_iff {html : Text} {P : Piece → Prop} :
    (∀ x ∈ placed html, P x.piece) ↔ ∀ p ∈ pieces html, P p := by
  have h := map_piece_placedFrom 0 (pieces html)
  conv_rhs => rw [← h]
  exact List.forall_mem_map.symm

/-! ## plain documents -/

def namesIn (inside : Text) : List Text :=
  (Html.readAttributes (Piece.bodyOf inside).attributes).map Html.Attribute.name

namespace Piece

def attributeNames : Piece → List Text
  | startTag inside => namesIn inside
  | rawElement inside _ => namesIn inside
  | _ => []

/-- whether a piece is a tag that does not end -/
def isUnfinished : Piece → Bool
  | unfinished _ => true
  | _ => false

/-- what every piece of a document satisfies -/
def Sound : Piece → Prop
  | text s => '<' ∉ s
  | endTag inside => IsTagName (nameOf inside)
  | startTag inside => IsTagName (nameOf inside)
  | rawElement inside _ => IsTagName (nameOf inside)
  | _ => True

end Piece

def attributeNames (html : Text) : List Text := (pieces html).flatMap Piece.attributeNames

theorem isTagName_nameOf {inside : Text} (h : inside.head?.any Char.isAlpha = true) :
    IsTagName (Piece.nameOf inside) := isTagName_of_readName? (if_pos h)

theorem sound_startPiece {inside : Text} (h : inside.head?.any Char.isAlpha = true) (rest : Text) :
    (startPiece inside rest).Sound := by
  unfold startPiece
  split
  · exact isTagName_nameOf h
  · exact isTagName_nameOf h

theorem sound_tagPiece {inside rest : Text}
    (h : (nameStart? (inside ++ '>' :: rest)).any Char.isAlpha = true) :
    (tagPiece inside rest).Sound := by
  have hhead : ∀ t : Text, (t ++ '>' :: rest).head?.any Char.isAlpha = true →
      t.head?.any Char.isAlpha = true := by
    intro t ht
    cases t with
    | nil => exact ht
    | cons c t => exact ht
  by_cases hs : inside.head? = some '/'
  · obtain ⟨t, rfl⟩ := List.head?_eq_some_iff.1 hs
    exact isTagName_nameOf (hhead t h)
  · rw [tagPiece_of_start hs]
    refine sound_startPiece (hhead inside ?_) rest
    rwa [nameStart?_eq] at h
    cases inside with
    | nil => exact fun e => absurd (Option.some.inj e) (by decide)
    | cons c t => exact hs

theorem sound_pieceAt (c : Char) (r : Text) : (pieceAt c r).Sound := by
  unfold pieceAt
  split
  · unfold markupPiece
    split
    · trivial
    split
    · trivial
    split
    · next ha =>
      cases ht : Html.closeTag r with
      | none => trivial
      | some t =>
        rw [Html.append_of_closeTag (a := t.1) (b := t.2) ht] at ha
        exact sound_tagPiece ha
    · trivial
  · exact fun hm => absurd (List.mem_takeWhile_imp hm) (by decide)

theorem plain_charTokens {c : Char} (h : c ≠ '<') : ∀ t ∈ charTokens c, t.Plain := by
  unfold charTokens
  split
  · exact List.forall_mem_singleton.2 trivial
  · next hb =>
    split
    · have hall : ∀ d ∈ "&gt;".toList, isSpecial d = false := by simp [isSpecial]
      exact List.forall_mem_map.2 hall
    · next hgt =>
      refine List.forall_mem_singleton.2 ?_
      show isSpecial c = false
      simp only [Bool.or_eq_true, decide_eq_true_eq, not_or] at hb
      simp [isSpecial, h, hgt, hb.1, hb.2]

theorem plain_flatMap_charTokens {s : Text} (h : '<' ∉ s) :
    ∀ t ∈ s.flatMap charTokens, t.Plain := by
  intro t ht
  obtain ⟨c, hc, ht⟩ := List.mem_flatMap.1 ht
  exact plain_charTokens (fun e => h (e ▸ hc)) t ht

theorem plain_stringTokens (s : Text) : ∀ t ∈ stringTokens s, t.Plain := by
  unfold stringTokens
  split
  · exact fun t ht => absurd ht List.not_mem_nil
  · exact List.forall_mem_singleton.2 trivial

theorem Piece.plain_textTokens_iff {p : Piece} (h : p.Sound) (depth : Nat) :
    (∀ t ∈ p.textTokens depth, t.Plain) ↔ p.isUnfinished = false := by
  cases p with
  | text s =>
    refine iff_of_true ?_ rfl
    show ∀ t ∈ runTokens depth s, t.Plain
    unfold runTokens
    split
    · exact plain_stringTokens _
    · exact plain_flatMap_charTokens h
  | rawElement inside content =>
    refine iff_of_true ?_ rfl
    show ∀ t ∈ rawTokens _ content, t.Plain
    unfold rawTokens
    split
    · exact plain_stringTokens _
    · exact plain_stringTokens _
  | unfinished s =>
    refine iff_of_false (fun hs => ?_) fun e => Bool.noConfusion e
    have hlt : isSpecial '<' = false := hs (.char '<') List.mem_cons_self
    exact absurd hlt (by decide)
  | stray => exact iff_of_true (List.forall_mem_singleton.2 trivial) rfl
  | _ => exact iff_of_true (fun t ht => absurd ht List.not_mem_nil) rfl

/-- a value is left in its quotes only when it does not hold them -/
theorem closed_propertyOf (a : Html.Attribute) : ∀ v ∈ (propertyOf a).value, v.Closed := by
  intro v hv
  obtain ⟨raw, -, rfl⟩ := Option.map_eq_some_iff.1 hv
  split
  · trivial
  split
  · trivial
  · next hq => exact fun hm => hq (List.contains_iff_mem.2 hm)

theorem plain_propertyOf_iff (a : Html.Attribute) :
    (propertyOf a).Plain ↔ IsPropertyName a.name := by
  rw [← isPropertyName_attributeName_iff]
  exact ⟨fun h => h.name, fun h => ⟨h, closed_propertyOf a⟩⟩

theorem plain_startToken_iff {inside : Text} (h : IsTagName (Piece.nameOf inside)) :
    (startToken (Piece.nameOf inside) (Piece.bodyOf inside)).Plain ↔
      ∀ n ∈ namesIn inside, IsPropertyName n := by
  show (IsTagName (tagName _) ∧ ∀ p ∈ List.map propertyOf _, p.Plain) ↔ _
  rw [List.forall_mem_map, namesIn, List.forall_mem_map]
  exact (and_iff_right (isTagName_tagName h)).trans
    (forall_congr' fun a => forall_congr' fun _ => plain_propertyOf_iff a)

theorem Piece.plain_tagTokens_iff {p : Piece} (h : p.Sound) :
    (∀ t ∈ p.tagTokens, t.Plain) ↔ ∀ n ∈ p.attributeNames, IsPropertyName n := by
  cases p with
  | endTag inside =>
    refine iff_of_true ?_ fun n hn => absurd hn List.not_mem_nil
    show ∀ t ∈ endTokens _, t.Plain
    unfold endTokens
    split
    · exact fun t ht => absurd ht List.not_mem_nil
    · exact List.forall_mem_singleton.2 (isTagName_tagName h)
  | startTag inside => exact List.forall_mem_singleton.trans (plain_startToken_iff h)
  | rawElement inside content => exact List.forall_mem_singleton.trans (plain_startToken_iff h)
  | _ => exact iff_of_true (fun t ht => absurd ht List.not_mem_nil) fun n hn => absurd hn List.not_mem_nil

/-- what is written for a piece at its place -/
theorem Placed.plain_tokens_iff {x : Placed} (h : x.piece.Sound) :
    (∀ t ∈ x.tokens, t.Plain) ↔
      x.piece.isUnfinished = false ∧ ∀ n ∈ x.piece.attributeNames, IsPropertyName n := by
  rw [tokens, Piece.tokens, List.forall_mem_append, Piece.plain_tagTokens_iff h,
    Piece.plain_textTokens_iff h, and_comm]

theorem plain_tokens_iff (html : Text) :
    (∀ t ∈ tokens html, t.Plain) ↔
      (∀ p ∈ pieces html, p.isUnfinished = false) ∧ ∀ n ∈ attributeNames html, IsPropertyName n := by
  have hs := forall_placed_iff.2 (forall_mem_pieces sound_pieceAt html)
  have hp : (∀ t ∈ tokens html, t.Plain) ↔ ∀ x ∈ placed html,
      x.piece.isUnfinished = false ∧ ∀ n ∈ x.piece.attributeNames, IsPropertyName n := by
    rw [tokens, List.forall_mem_flatMap]
    exact forall₂_congr fun x hx => x.plain_tokens_iff (hs x hx)
  rw [hp, attributeNames, List.forall_mem_flatMap, ← forall₂_and]
  exact forall_placed_iff (P := fun p =>
    p.isUnfinished = false ∧ ∀ n ∈ p.attributeNames, IsPropertyName n)

/-- **The document in JSX is read as its tokens when no tag is left open and all attributes have
plain names, and not otherwise.** -/
theorem read?_ofHtml_iff (html : Text) :
    read? (ofHtml html) = some (tokens html) ↔
      (∀ p ∈ pieces html, p.isUnfinished = false) ∧ ∀ n ∈ attributeNames html, IsPropertyName n := by
  rw [← flatMap_source_tokens, read?_flatMap_source_iff, plain_tokens_iff]

end MarkdownModule.Jsx

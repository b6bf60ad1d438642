import MarkdownModule.Proofs.Html.Reference
import MarkdownModule.Proofs.Jsx.Written

/-!
# Text stays text

What of a document is text must not become markup or an expression of JSX.  Two things of a document
are copied as they stand: a tag that is left open, and the names of attributes.

* `Jsx.LeakFree`       no text becomes markup
* `Jsx.leakFree_iff`   when that is so
* `Jsx.Contained`      no text becomes an expression
* `Jsx.contained_iff`  when that is so
-/

namespace MarkdownModule.Jsx

/-! ## text and its tokens -/

/-- the tokens write a text, and escape its special characters -/
inductive Escapes : Text → List Token → Prop
  | nil : Escapes [] []
  | char {c : Char} {s : Text} {ts : List Token} (hc : isSpecial c = false) (h : Escapes s ts) :
      Escapes (c :: s) (.char c :: ts)
  | reference {s : Text} {ts : List Token} (h : Escapes s ts) :
      Escapes ('>' :: s) ("&gt;".toList.map .char ++ ts)
  /-- a part of the text as a string -/
  | string (w : Text) {s : Text} {ts : List Token} (h : Escapes s ts) :
      Escapes (w ++ s) (.string w :: ts)
  /-- a part of the text as a string, with its character references replaced -/
  | decoded (w : Text) {s : Text} {ts : List Token} (h : Escapes s ts) :
      Escapes (w ++ s) (.string (Html.decodeReferences w) :: ts)

theorem escapes_flatMap_charTokens {s : Text} (h : '<' ∉ s) : Escapes s (s.flatMap charTokens) := by
  induction s with
  | nil => exact .nil
  | cons c s ih =>
    obtain ⟨hc, hs⟩ := not_or.1 (mt List.mem_cons.2 h)
    rw [List.flatMap_cons, charTokens]
    by_cases hb : (decide (c = '\x7b') || decide (c = '\x7d')) = true
    · rw [if_pos hb]
      exact .string [c] (ih hs)
    rw [if_neg hb]
    by_cases hgt : c = '>'
    · rw [if_pos hgt, hgt]
      exact .reference (ih hs)
    · rw [if_neg hgt]
      refine .char ?_ (ih hs)
      simp only [Bool.or_eq_true, decide_eq_true_eq, not_or] at hb
      simp [isSpecial, Ne.symm hc, hgt, hb.1, hb.2]

theorem escapes_stringTokens (s : Text) : Escapes s (stringTokens s) := by
  cases s with
  | nil => exact .nil
  | cons c r =>
    have h := Escapes.string (c :: r) .nil
    rwa [List.append_nil] at h

theorem escapes_stringTokens_decoded (s : Text) :
    Escapes s (stringTokens (Html.decodeReferences s)) := by
  by_cases hs : s = []
  · rw [hs, Html.decodeReferences]
    exact .nil
  · have h := Escapes.decoded s .nil
    rw [List.append_nil] at h
    rw [stringTokens, if_neg (mt List.isEmpty_iff.1 (Html.decodeReferences_ne_nil hs))]
    exact h

theorem escapes_nil_iff {s : Text} : Escapes s [] ↔ s = [] := by
  constructor
  · intro h
    cases h
    rfl
  · rintro rfl
    exact .nil

/-! ## what stands outside of values -/

theorem isTag_charTokens (c : Char) : ∀ t ∈ charTokens c, t.isTag = false := by
  unfold charTokens
  split
  · exact List.forall_mem_singleton.2 rfl
  split
  · exact List.forall_mem_map.2 fun d _ => rfl
  · exact List.forall_mem_singleton.2 rfl

theorem isTag_stringTokens (s : Text) : ∀ t ∈ stringTokens s, t.isTag = false := by
  unfold stringTokens
  split
  · exact fun t ht => absurd ht List.not_mem_nil
  · exact List.forall_mem_singleton.2 rfl

theorem Piece.isTag_textTokens (p : Piece) (depth : Nat) :
    ∀ t ∈ p.textTokens depth, t.isTag = false := by
  have hchars : ∀ s : Text, ∀ t ∈ s.flatMap charTokens, t.isTag = false := by
    intro s t ht
    obtain ⟨c, -, ht⟩ := List.mem_flatMap.1 ht
    exact isTag_charTokens c t ht
  cases p with
  | text s =>
    show ∀ t ∈ runTokens depth s, t.isTag = false
    unfold runTokens
    split
    · exact isTag_stringTokens _
    · exact hchars s
  | rawElement inside content =>
    show ∀ t ∈ rawTokens _ content, t.isTag = false
    unfold rawTokens
    split
    · exact isTag_stringTokens _
    · exact isTag_stringTokens _
  | unfinished s => exact hchars ('<' :: s)
  | stray => exact List.forall_mem_singleton.2 rfl
  | _ => exact fun t ht => absurd ht List.not_mem_nil

theorem isSpecial_of_plain {t : Token} (h : t.Plain) (ht : t.isTag = false) :
    ∀ c ∈ t.bare, isSpecial c = false := by
  cases t with
  | char c => exact List.forall_mem_singleton.2 h
  | string s => exact fun c hc => by cases hc
  | openTag name ps closed => cases ht
  | closeTag name => cases ht

/-- text has no special character outside of strings, but the first one of a tag that is left open -/
theorem Piece.of_mem_bare_textTokens {p : Piece} (hp : p.Sound) {depth : Nat} {t : Token}
    (ht : t ∈ p.textTokens depth) {c : Char} (hc : c ∈ t.bare) (hs : isSpecial c = true) :
    p.isUnfinished = true ∧ c = '<' := by
  have htag := p.isTag_textTokens depth t ht
  have hplain : ¬ t.Plain := fun h => by
    rw [isSpecial_of_plain h htag c hc] at hs
    cases hs
  cases p with
  | unfinished s =>
    obtain ⟨d, -, hd⟩ := List.mem_flatMap.1 ht
    have e : d = '<' := by
      by_contra hne
      exact hplain (plain_charTokens hne t hd)
    rw [e] at hd
    rw [List.mem_singleton.1 hd] at hc
    exact ⟨rfl, List.mem_singleton.1 hc⟩
  | _ => exact absurd ((plain_textTokens_iff hp depth).2 rfl t ht) hplain

/-- a `<` or a brace behind the head of a start tag stands in the name of an attribute -/
theorem mem_tail_bare_startToken {c : Char} (hc : c = '<' ∨ c = '\x7b') {inside : Text}
    (h : IsTagName (Piece.nameOf inside)) :
    c ∈ (startToken (Piece.nameOf inside) (Piece.bodyOf inside)).bare.tail ↔
      ∃ n ∈ namesIn inside, c ∈ n := by
  have hname : c ∉ tagName (Piece.nameOf inside) := fun hm => by
    have hn := (isTagName_tagName h).2 c hm
    rcases hc with rfl | rfl
    · exact absurd hn (by decide)
    · exact absurd hn (by decide)
  have hend : ∀ closed, c ∉ endSource closed := fun closed => by
    rcases hc with rfl | rfl
    · cases closed <;> decide
    · cases closed <;> decide
  have hproperty : ∀ p : Property, c ∈ p.write (fun _ => []) ↔ c ∈ p.name := fun p => by
    rcases hc with rfl | rfl
    · cases hv : p.value <;> simp [Property.write, hv]
    · cases hv : p.value <;> simp [Property.write, hv]
  have hchar : isPropertyChar c = false := by
    rcases hc with rfl | rfl
    · decide
    · decide
  show c ∈ tagName _ ++ _ ++ endSource _ ↔ _
  rw [List.mem_append, List.mem_append, or_iff_left (hend _), or_iff_right hname, List.flatMap_map,
    List.mem_flatMap, namesIn]
  constructor
  · rintro ⟨a, ha, hm⟩
    exact ⟨a.name, List.mem_map_of_mem ha,
      (mem_attributeName_iff hchar a.name).1 ((hproperty (propertyOf a)).1 hm)⟩
  · rintro ⟨n, hn, hm⟩
    obtain ⟨a, ha, rfl⟩ := List.mem_map.1 hn
    exact ⟨a, ha, (hproperty (propertyOf a)).2 ((mem_attributeName_iff hchar a.name).2 hm)⟩

namespace Piece

/-- whether a piece is a tag that ends, with the content behind it or without -/
def isTag : Piece → Bool
  | endTag _ => true
  | startTag _ => true
  | rawElement _ _ => true
  | _ => false

theorem of_mem_tagTokens {p : Piece} {t : Token} (h : t ∈ p.tagTokens) :
    p.isTag = true ∧ t.isTag = true ∧ t.bare = '<' :: t.bare.tail := by
  cases p with
  | endTag inside =>
    have h : t ∈ endTokens _ := h
    unfold endTokens at h
    split at h
    · cases h
    · rw [List.mem_singleton.1 h]
      exact ⟨rfl, rfl, rfl⟩
  | startTag inside =>
    rw [List.mem_singleton.1 h]
    exact ⟨rfl, rfl, rfl⟩
  | rawElement inside content =>
    rw [List.mem_singleton.1 h]
    exact ⟨rfl, rfl, rfl⟩
  | _ => cases h

theorem mem_tail_bare_tagTokens {c : Char} (hc : c = '<' ∨ c = '\x7b') {p : Piece} (hp : p.Sound) :
    (∀ t ∈ p.tagTokens, c ∉ t.bare.tail) ↔ ∀ n ∈ p.attributeNames, c ∉ n := by
  have hstart : ∀ inside, IsTagName (nameOf inside) →
      ((∀ t ∈ [startToken (nameOf inside) (bodyOf inside)], c ∉ t.bare.tail) ↔
        ∀ n ∈ namesIn inside, c ∉ n) := by
    intro inside h
    rw [List.forall_mem_singleton, mem_tail_bare_startToken hc h]
    exact ⟨fun h n hn hm => h ⟨n, hn, hm⟩, fun h ⟨n, hn, hm⟩ => h n hn hm⟩
  cases p with
  | endTag inside =>
    refine iff_of_true (fun t ht hm => ?_) fun n hn => absurd hn List.not_mem_nil
    have ht : t ∈ endTokens _ := ht
    unfold endTokens at ht
    split at ht
    · cases ht
    · rw [List.mem_singleton.1 ht] at hm
      have hm : c ∈ '/' :: tagName (nameOf inside) ++ ['>'] := hm
      have hn := (isTagName_tagName hp).2 c
      rcases hc with rfl | rfl
      · simp at hm
        exact absurd (hn hm) (by decide)
      · simp at hm
        exact absurd (hn hm) (by decide)
  | startTag inside => exact hstart inside hp
  | rawElement inside content => exact hstart inside hp
  | _ => exact iff_of_true (fun t ht => absurd ht List.not_mem_nil) fun n hn => absurd hn List.not_mem_nil

end Piece

/-! ## markup -/

namespace Piece

def isComplete : Piece → Bool
  | comment s => decide ("-->".toList <:+: s.drop 3)
  | declaration s => (Html.closeTag s).isSome
  | unfinished _ => false
  | _ => true

/-- the text of a piece that belongs to no complete tag, comment or declaration -/
def freeText : Piece → Text
  | text s => s
  | comment s => if isComplete (comment s) then [] else '<' :: s
  | declaration s => if isComplete (declaration s) then [] else '<' :: s
  | stray => ['<']
  | rawElement _ content => content
  | unfinished s => '<' :: s
  | _ => []

theorem escapes_freeText {p : Piece} (hp : p.Sound) (h : p.isComplete = true) (depth : Nat) :
    Escapes p.freeText (p.textTokens depth) := by
  cases p with
  | text s =>
    show Escapes s (runTokens depth s)
    unfold runTokens
    split
    · exact escapes_stringTokens_decoded s
    · exact escapes_flatMap_charTokens hp
  | comment s => exact escapes_nil_iff.2 (if_pos h)
  | declaration s => exact escapes_nil_iff.2 (if_pos h)
  | stray => exact .string ['<'] .nil
  | rawElement inside content =>
    show Escapes content (rawTokens _ content)
    unfold rawTokens
    split
    · exact escapes_stringTokens_decoded content
    · exact escapes_stringTokens content
  | unfinished s => cases h
  | endTag inside => exact .nil
  | startTag inside => exact .nil

/-- what is left out is no text only if it ends -/
theorem isComplete_of_escapes {p : Piece} (hu : p.isUnfinished = false) {depth : Nat}
    (h : Escapes p.freeText (p.textTokens depth)) : p.isComplete = true := by
  cases p with
  | comment s =>
    by_contra hc
    have e : ite _ _ _ = ([] : Text) := escapes_nil_iff.1 h
    rw [if_neg hc] at e
    cases e
  | declaration s =>
    by_contra hc
    have e : ite _ _ _ = ([] : Text) := escapes_nil_iff.1 h
    rw [if_neg hc] at e
    cases e
  | unfinished s => cases hu
  | _ => rfl

end Piece

/-- no text of a document becomes markup -/
structure LeakFree (html : Text) : Prop where
  /-- outside of values, a `<` begins the tag that is written for a complete tag -/
  markup : ∀ x ∈ placed html, ∀ t ∈ x.tokens, '<' ∈ t.bare →
    x.piece.isTag = true ∧ t.isTag = true ∧ '<' ∉ t.bare.tail
  /-- what belongs to no complete tag, comment or declaration is written with escapes -/
  text : ∀ x ∈ placed html, Escapes x.piece.freeText (x.piece.textTokens x.depth)

theorem Placed.markup_iff {x : Placed} (h : x.piece.Sound) :
    ((∀ t ∈ x.tokens, '<' ∈ t.bare → x.piece.isTag = true ∧ t.isTag = true ∧ '<' ∉ t.bare.tail) ∧
      Escapes x.piece.freeText (x.piece.textTokens x.depth)) ↔
    x.piece.isComplete = true ∧ ∀ n ∈ x.piece.attributeNames, '<' ∉ n := by
  rw [← Piece.mem_tail_bare_tagTokens (.inl rfl) h]
  constructor
  · rintro ⟨hm, ht⟩
    refine ⟨Piece.isComplete_of_escapes ?_ ht, fun t ht => ?_⟩
    · cases hp : x.piece with
      | unfinished s =>
        have hmem : Token.char '<' ∈ x.tokens := by
          rw [Placed.tokens, Piece.tokens, hp]
          exact List.mem_append_right _ List.mem_cons_self
        have htag := (hm _ hmem List.mem_cons_self).1
        rw [hp] at htag
        cases htag
      | _ => rfl
    · refine (hm t (List.mem_append_left _ ht) ?_).2.2
      rw [(Piece.of_mem_tagTokens ht).2.2]
      exact List.mem_cons_self
  · rintro ⟨hc, hn⟩
    refine ⟨fun t ht hm => ?_, Piece.escapes_freeText h hc x.depth⟩
    rcases List.mem_append.1 ht with ht | ht
    · obtain ⟨hp, htag, -⟩ := Piece.of_mem_tagTokens ht
      exact ⟨hp, htag, hn t ht⟩
    · have hu := (Piece.of_mem_bare_textTokens h ht hm rfl).1
      cases hp : x.piece with
      | unfinished s => rw [hp] at hc; cases hc
      | _ => rw [hp] at hu; cases hu

/-- **No text of a document becomes markup exactly when every tag, comment and declaration of it ends
and the name of no attribute holds a `<`.**  What is then written is read as the tags of the document
and its text, if the names of its attributes hold no other mark either. -/
theorem leakFree_iff (html : Text) :
    ((tokens html).flatMap Token.source = ofHtml html ∧
        (pieces html).flatMap Piece.source = html) ∧
      (LeakFree html ↔
        (∀ p ∈ pieces html, p.isComplete = true) ∧ ∀ n ∈ attributeNames html, '<' ∉ n) ∧
      (read? (ofHtml html) = some (tokens html) ↔
        (∀ p ∈ pieces html, p.isUnfinished = false) ∧
          ∀ n ∈ attributeNames html, IsPropertyName n) := by
  refine ⟨⟨flatMap_source_tokens html, flatMap_source_pieces html⟩, ?_, read?_ofHtml_iff html⟩
  have hs := forall_placed_iff.2 (forall_mem_pieces sound_pieceAt html)
  rw [attributeNames, List.forall_mem_flatMap, ← forall₂_and]
  refine Iff.trans ?_ (forall_placed_iff (P := fun p =>
    p.isComplete = true ∧ ∀ n ∈ p.attributeNames, '<' ∉ n))
  constructor
  · intro h x hx
    exact (x.markup_iff (hs x hx)).1 ⟨h.markup x hx, h.text x hx⟩
  · intro h
    exact ⟨fun x hx => ((x.markup_iff (hs x hx)).2 (h x hx)).1,
      fun x hx => ((x.markup_iff (hs x hx)).2 (h x hx)).2⟩

/-- **A tag that is left open begins markup.** -/
theorem not_leakFree_open :
    let html := "<b".toList
    ofHtml html = html ∧ read? (ofHtml html) = none ∧ ¬ LeakFree html := by
  intro html
  have hp : placed html = [⟨0, .unfinished ['b']⟩] := by decide +kernel
  have ho : ofHtml html = html := by decide +kernel
  refine ⟨ho, by rw [ho]; decide +kernel, fun h => ?_⟩
  have hm := h.markup ⟨0, .unfinished ['b']⟩ (by rw [hp]; exact List.mem_singleton.2 rfl) (.char '<')
    (by decide +kernel) (by decide)
  cases hm.1

/-! ## expressions -/

def Token.values : Token → List Value
  | string s => [.string s]
  | openTag _ properties _ => properties.filterMap Property.value
  | _ => []

/-- no text of a document becomes an expression -/
structure Contained (html : Text) : Prop where
  /-- outside of values no brace is written -/
  bare : ∀ t ∈ tokens html, '\x7b' ∉ t.bare
  /-- a value in quotes ends at its own quote -/
  values : ∀ t ∈ tokens html, ∀ v ∈ t.values, v.Closed

theorem closed_of_mem_tokens {html : Text} {t : Token} (ht : t ∈ tokens html) :
    ∀ v ∈ t.values, v.Closed := by
  intro v hv
  obtain ⟨x, -, ht⟩ := List.mem_flatMap.1 ht
  have hstart : ∀ name b, t = startToken name b → v.Closed := by
    rintro name b rfl
    obtain ⟨p, hp, hv⟩ := List.mem_filterMap.1 hv
    obtain ⟨a, -, rfl⟩ := List.mem_map.1 hp
    exact closed_propertyOf a v hv
  rcases List.mem_append.1 ht with ht | ht
  · cases hp : x.piece with
    | startTag inside =>
      rw [hp] at ht
      exact hstart _ _ (List.mem_singleton.1 ht)
    | rawElement inside content =>
      rw [hp] at ht
      exact hstart _ _ (List.mem_singleton.1 ht)
    | endTag inside =>
      rw [hp] at ht
      have ht : t ∈ endTokens _ := ht
      unfold endTokens at ht
      split at ht
      · cases ht
      · rw [List.mem_singleton.1 ht] at hv
        cases hv
    | _ => rw [hp] at ht; cases ht
  · have htag := x.piece.isTag_textTokens x.depth t ht
    cases t with
    | char c => cases hv
    | string s =>
      rw [List.mem_singleton.1 hv]
      trivial
    | openTag name ps closed => cases htag
    | closeTag name => cases htag

theorem Placed.bare_iff {x : Placed} (h : x.piece.Sound) :
    (∀ t ∈ x.tokens, '\x7b' ∉ t.bare) ↔ ∀ n ∈ x.piece.attributeNames, '\x7b' ∉ n := by
  rw [← Piece.mem_tail_bare_tagTokens (.inr rfl) h, Placed.tokens, Piece.tokens,
    List.forall_mem_append, and_iff_left]
  · refine forall₂_congr fun t ht => not_congr ?_
    rw [(Piece.of_mem_tagTokens ht).2.2, List.mem_cons, or_iff_right (by decide), List.tail_cons]
  · intro t ht hm
    exact absurd (Piece.of_mem_bare_textTokens h ht hm rfl).2 (by decide)

/-- **No text of a document becomes an expression exactly when the name of no attribute holds an
opening brace.**  The braces that are written then open strings and objects of strings, and the
document is read so, if the names of its attributes hold no other mark and every tag ends. -/
theorem contained_iff (html : Text) :
    (tokens html).flatMap Token.source = ofHtml html ∧
      (Contained html ↔ ∀ n ∈ attributeNames html, '\x7b' ∉ n) ∧
      (read? (ofHtml html) = some (tokens html) ↔
        (∀ p ∈ pieces html, p.isUnfinished = false) ∧
          ∀ n ∈ attributeNames html, IsPropertyName n) := by
  refine ⟨flatMap_source_tokens html, ?_, read?_ofHtml_iff html⟩
  have hs := forall_placed_iff.2 (forall_mem_pieces sound_pieceAt html)
  have hbare : (∀ t ∈ tokens html, '\x7b' ∉ t.bare) ↔ ∀ n ∈ attributeNames html, '\x7b' ∉ n := by
    rw [tokens, attributeNames, List.forall_mem_flatMap, List.forall_mem_flatMap]
    refine Iff.trans (forall₂_congr fun x hx => x.bare_iff (hs x hx)) ?_
    exact forall_placed_iff (P := fun p => ∀ n ∈ p.attributeNames, '\x7b' ∉ n)
  rw [← hbare]
  exact ⟨fun h => h.bare, fun h => ⟨h, fun t ht => closed_of_mem_tokens ht⟩⟩

/-- **An attribute with braces spreads an object.** -/
theorem not_contained_spread :
    let html := "<a \x7b...x\x7d>".toList
    ofHtml html = html ∧ read? (ofHtml html) = none ∧ ¬ Contained html := by
  intro html
  have ho : ofHtml html = html := by decide +kernel
  refine ⟨ho, by rw [ho]; decide +kernel, fun h => ?_⟩
  have hm : Token.openTag ['a'] [⟨"\x7b...x\x7d".toList, none⟩] false ∈ tokens html := by
    decide +kernel
  exact h.bare _ hm (by decide)

end MarkdownModule.Jsx

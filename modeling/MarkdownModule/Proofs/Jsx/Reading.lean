import MarkdownModule.Proofs.Jsx.Token
import MarkdownModule.Proofs.Text.Ends

/-!
# Tokens are read as they are written

* `Jsx.readToken?_source`       a plain token in front of any text
* `Jsx.plain_of_readToken?`     a token that is read is plain
* `Jsx.read?_flatMap_source_iff`  the text of tokens is read as these tokens when they are plain, and
                                  not otherwise
-/

namespace MarkdownModule.Jsx

/-! ## marks between white space -/

theorem skip_cons {c : Char} (hc : Script.isGap c = false) (r : Text) : skip (c :: r) = c :: r :=
  List.dropWhile_cons_of_neg (by rw [hc]; exact Bool.false_ne_true)

theorem skip_space (r : Text) : skip (' ' :: r) = skip r := rfl

theorem expect?_cons {c : Char} (hc : Script.isGap c = false) (r : Text) :
    expect? c (c :: r) = some r := by
  rw [expect?, skip_cons hc]
  exact if_pos rfl

theorem expect?_of_ne {c d : Char} (hd : Script.isGap d = false) (h : d ≠ c) (r : Text) :
    expect? c (d :: r) = none := by
  rw [expect?, skip_cons hd]
  exact if_neg h

theorem expect?_space (c : Char) (r : Text) : expect? c (' ' :: r) = expect? c r := by
  rw [expect?, skip_space, expect?]

/-! ## strings and objects -/

theorem skip_stringLiteral (s r : Text) :
    skip (Script.stringLiteral s ++ r) = Script.stringLiteral s ++ r := skip_cons (by decide) _

theorem readString?_stringLiteral (s r : Text) :
    readString? (Script.stringLiteral s ++ r) = some (s, r) := by
  rw [readString?, skip_stringLiteral]
  exact Script.readLiteral?_quote Script.spellsChar_escapeChar s r

theorem readString?_space (s : Text) : readString? (' ' :: s) = readString? s := by
  rw [readString?, skip_space, readString?]

theorem readMember?_source (e : Text × Text) (r : Text) :
    readMember? (memberSource e ++ r) = some (e, r) := by
  have hs : memberSource e ++ r =
      Script.stringLiteral e.1 ++ ':' :: ' ' :: (Script.stringLiteral e.2 ++ r) := by
    simp [memberSource]
  rw [hs, readMember?, readString?_stringLiteral, Option.bind_some, expect?_cons (by decide),
    Option.bind_some, readString?_space, readString?_stringLiteral, Option.map_some]

theorem readMembers?_space (s : Text) : readMembers? (' ' :: s) = readMembers? s := by
  rw [readMembers?, readMembers?, expect?_space]
  have h : readMember? (' ' :: s) = readMember? s := by
    rw [readMember?, readString?_space, readMember?]
  split
  · rfl
  · rw [h]

theorem expect?_memberSource {c : Char} (hc : c ≠ '"') (e : Text × Text) (r : Text) :
    expect? c (memberSource e ++ r) = none := by
  have hs : memberSource e ++ r = '"' ::
      (e.1.flatMap Script.escapeChar ++ '"' :: ':' :: ' ' :: (Script.stringLiteral e.2 ++ r)) := by
    simp [memberSource, Script.stringLiteral, Json.quote]
  rw [hs]
  exact expect?_of_ne (by decide) (Ne.symm hc) _

theorem readMembers?_source (e : Text × Text) (es : List (Text × Text)) (r : Text) :
    readMembers? (", ".toList.intercalate ((e :: es).map memberSource) ++ ' ' :: '\x7d' :: r) =
      some (e :: es, r) := by
  induction es generalizing e with
  | nil =>
    have hs : ", ".toList.intercalate ([e].map memberSource) = memberSource e := by
      simp [List.intercalate]
    rw [hs, readMembers?, expect?_memberSource (by decide)]
    dsimp only
    rw [readMember?_source]
    dsimp only
    rw [expect?_space, expect?_of_ne (by decide) (by decide)]
    dsimp only
    rw [expect?_space, expect?_cons (by decide), Option.map_some]
  | cons f fs ih =>
    have hs : ", ".toList.intercalate ((e :: f :: fs).map memberSource) = memberSource e ++ ',' :: ' ' ::
        ", ".toList.intercalate ((f :: fs).map memberSource) := by
      simp [List.intercalate]
    rw [hs, List.append_assoc, readMembers?, expect?_memberSource (by decide)]
    dsimp only
    rw [readMember?_source]
    dsimp only
    rw [List.cons_append, List.cons_append, expect?_cons (by decide)]
    dsimp only
    rw [readMembers?_space, ih, Option.map_some]

theorem readContainer?_stringLiteral (s r : Text) :
    readContainer? (Script.stringLiteral s ++ '\x7d' :: r) = some (s, r) := by
  rw [readContainer?, readString?_stringLiteral, Option.bind_some, expect?_cons (by decide),
    Option.map_some]

theorem readValue?_quoted {raw : Text} (h : '"' ∉ raw) (r : Text) :
    readValue? ('"' :: (raw ++ '"' :: r)) = some (.quoted raw, r) := by
  have hspan := Text.span_of_not_mem h r
  unfold readValue?
  rw [skip_cons (by decide)]
  dsimp only
  rw [if_pos rfl, hspan.1, hspan.2]

theorem readValue?_source {v : Value} (h : v.Closed) (r : Text) :
    readValue? (v.source ++ r) = some (v, r) := by
  cases v with
  | quoted raw =>
    have hs : (Value.quoted raw).source ++ r = '"' :: (raw ++ '"' :: r) := by simp [Value.source]
    rw [hs, readValue?_quoted h]
  | string s =>
    have hs : (Value.string s).source ++ r =
        '\x7b' :: (Script.stringLiteral s ++ '\x7d' :: r) := by simp [Value.source, container]
    have he : expect? '\x7b' (Script.stringLiteral s ++ '\x7d' :: r) = none :=
      expect?_of_ne (d := '"') (by decide) (by decide) _
    unfold readValue?
    rw [hs, skip_cons (by decide)]
    dsimp only
    rw [if_neg (by decide), if_pos rfl, he]
    dsimp only
    rw [readContainer?_stringLiteral, Option.map_some]
  | object es =>
    have key : ∀ t, (Value.object es).source ++ r = '\x7b' :: '\x7b' :: t →
        readMembers? t = some (es, '\x7d' :: r) →
        readValue? ((Value.object es).source ++ r) = some (.object es, r) := by
      intro t hs ht
      unfold readValue?
      rw [hs, skip_cons (by decide)]
      dsimp only
      rw [if_neg (by decide), if_pos rfl, expect?_cons (by decide)]
      dsimp only
      rw [ht, Option.bind_some, expect?_cons (by decide), Option.map_some]
    cases es with
    | nil =>
      refine key ('\x7d' :: '\x7d' :: r) rfl ?_
      rw [readMembers?, expect?_cons (by decide)]
    | cons e es =>
      refine key (' ' :: (", ".toList.intercalate ((e :: es).map memberSource) ++
        ' ' :: '\x7d' :: '\x7d' :: r)) ?_ ?_
      · simp [Value.source, container, objectSource]
      · rw [readMembers?_space, readMembers?_source]

/-! ## properties -/

theorem isPropertyChar_eq_true {c : Char} : isPropertyChar c = true ↔
    Script.isGap c = false ∧ isSpecial c = false ∧ c ≠ '=' ∧ c ≠ '/' ∧ Html.isQuote c = false := by
  simp [isPropertyChar, and_assoc]

theorem readProperty?_write {p : Property} (hp : p.Plain) {r : Text}
    (hr : ∀ c ∈ r.head?, isPropertyChar c = false) (he : expect? '=' r = none) :
    ∃ t, p.write Value.source ++ r = ' ' :: t ∧ readProperty? (skip t) = some (p, r) ∧
      expect? '>' t = none ∧ expect? '/' t = none := by
  obtain ⟨name, value⟩ := p
  obtain ⟨⟨hn, hc⟩, hv⟩ := hp
  dsimp only at hn hc hv
  cases name with
  | nil => exact absurd rfl hn
  | cons c n =>
    obtain ⟨hgap, hspecial, -, hslash, -⟩ := isPropertyChar_eq_true.1 (hc c List.mem_cons_self)
    have hgt : c ≠ '>' := fun e => absurd hspecial (by rw [e]; decide)
    have hspan : ∀ u : Text, (∀ d ∈ u.head?, isPropertyChar d = false) →
        (c :: n ++ u).takeWhile isPropertyChar = c :: n ∧
          (c :: n ++ u).dropWhile isPropertyChar = u := fun u hu => Text.span_of_forall hc hu
    cases value with
    | none =>
      refine ⟨c :: n ++ r, by simp [Property.write], ?_, expect?_of_ne hgap hgt _,
        expect?_of_ne hgap hslash _⟩
      rw [List.cons_append, skip_cons hgap, ← List.cons_append, readProperty?, (hspan r hr).1,
        (hspan r hr).2, List.isEmpty_cons, if_neg Bool.false_ne_true, he]
    | some v =>
      have hu : ∀ d ∈ ('=' :: (v.source ++ r)).head?, isPropertyChar d = false := fun d hd => by
        rw [← Option.mem_some_iff.1 hd]
        decide
      refine ⟨c :: n ++ '=' :: (v.source ++ r), by simp [Property.write], ?_,
        expect?_of_ne hgap hgt _, expect?_of_ne hgap hslash _⟩
      rw [List.cons_append, skip_cons hgap, ← List.cons_append, readProperty?, (hspan _ hu).1,
        (hspan _ hu).2, List.isEmpty_cons, if_neg Bool.false_ne_true, expect?_cons (by decide)]
      dsimp only
      rw [readValue?_source (hv v rfl), Option.map_some]

def endSource (closed : Bool) : Text := if closed then " />".toList else ['>']

theorem endsName_properties (ps : List Property) (closed : Bool) (r : Text) :
    ∀ c ∈ (ps.flatMap (Property.write Value.source) ++ endSource closed ++ r).head?,
      c = ' ' ∨ c = '>' := by
  intro c hc
  cases ps with
  | nil =>
    cases closed with
    | true => exact .inl (Option.mem_some_iff.1 hc).symm
    | false => exact .inr (Option.mem_some_iff.1 hc).symm
  | cons p ps => exact .inl (Option.mem_some_iff.1 hc).symm

theorem expect?_properties {ps : List Property} (h : ∀ p ∈ ps, p.Plain) (closed : Bool) (r : Text) :
    expect? '=' (ps.flatMap (Property.write Value.source) ++ endSource closed ++ r) = none := by
  cases ps with
  | nil =>
    cases closed with
    | true => exact (expect?_space _ _).trans (expect?_of_ne (by decide) (by decide) _)
    | false => exact expect?_of_ne (by decide) (by decide) _
  | cons p ps =>
    obtain ⟨hn, hc⟩ := (h p List.mem_cons_self).name
    obtain ⟨c, n, e⟩ := List.exists_cons_of_ne_nil hn
    obtain ⟨hgap, -, heq, -, -⟩ :=
      isPropertyChar_eq_true.1 (hc c (by rw [e]; exact List.mem_cons_self))
    simp only [List.flatMap_cons, Property.write, e, List.cons_append]
    exact (expect?_space _ _).trans (expect?_of_ne hgap heq _)

theorem readProperties?_write {ps : List Property} (h : ∀ p ∈ ps, p.Plain) (closed : Bool)
    (r : Text) :
    readProperties? (ps.flatMap (Property.write Value.source) ++ endSource closed ++ r) =
      some (ps, closed, r) := by
  induction ps with
  | nil =>
    cases closed with
    | true =>
      show readProperties? (' ' :: '/' :: '>' :: r) = _
      rw [readProperties?, expect?_space, expect?_of_ne (by decide) (by decide)]
      dsimp only
      rw [expect?_space, expect?_cons (by decide)]
      dsimp only
      rw [expect?_cons (by decide), Option.map_some]
    | false =>
      show readProperties? ('>' :: r) = _
      rw [readProperties?, expect?_cons (by decide)]
  | cons p ps ih =>
    obtain ⟨hp, hps⟩ := List.forall_mem_cons.1 h
    have hr : ∀ c ∈ (ps.flatMap (Property.write Value.source) ++ endSource closed ++ r).head?,
        isPropertyChar c = false := fun c hc => by
      rcases endsName_properties ps closed r c hc with rfl | rfl
      · decide
      · decide
    obtain ⟨t, e, ht, hgt, hslash⟩ := readProperty?_write hp hr (expect?_properties hps closed r)
    rw [List.flatMap_cons, List.append_assoc, List.append_assoc, ← List.append_assoc (List.flatMap _ _), e,
      readProperties?, expect?_space, hgt]
    dsimp only
    rw [expect?_space, hslash]
    dsimp only
    rw [skip_space, ht]
    dsimp only
    rw [ih hps, Option.map_some]

/-! ## tokens -/

theorem readName?_append {n : Text} (hn : IsTagName n) {r : Text}
    (hr : ∀ c ∈ r.head?, Html.isNameChar c = false) : readName? (n ++ r) = some (n, r) := by
  obtain ⟨hhead, hc⟩ := hn
  have hspan := Text.span_of_forall hc hr
  have ha : (n ++ r).head?.any Char.isAlpha = true := by
    cases n with
    | nil => exact absurd hhead Bool.false_ne_true
    | cons c n => exact hhead
  rw [readName?, if_pos ha, hspan.1, hspan.2]

/-- **A plain token is read as it is written, whatever follows.** -/
theorem readToken?_source {t : Token} (h : t.Plain) (r : Text) :
    readToken? (t.source ++ r) = some (t, r) := by
  cases t with
  | char c =>
    have hc : isSpecial c = false := h
    have hlt : c ≠ '<' := fun e => absurd hc (by rw [e]; decide)
    have hbrace : c ≠ '\x7b' := fun e => absurd hc (by rw [e]; decide)
    show readToken? (c :: r) = _
    rw [readToken?, if_neg hlt, if_neg hbrace, hc, if_neg Bool.false_ne_true]
  | string s =>
    have hs : (Token.string s).source ++ r =
        '\x7b' :: (Script.stringLiteral s ++ '\x7d' :: r) := by
      simp [Token.source, Token.write, Value.source, container]
    rw [hs, readToken?, if_neg (by decide), if_pos rfl, readContainer?_stringLiteral,
      Option.map_some]
  | openTag name ps closed =>
    obtain ⟨hn, hps⟩ := h
    have hs : (Token.openTag name ps closed).source ++ r =
        '<' :: (name ++ (ps.flatMap (Property.write Value.source) ++ endSource closed ++ r)) := by
      simp [Token.source, Token.write, endSource]
    have hr : ∀ c ∈ (ps.flatMap (Property.write Value.source) ++ endSource closed ++ r).head?,
        Html.isNameChar c = false := fun c hc => by
      rcases endsName_properties ps closed r c hc with rfl | rfl
      · decide
      · decide
    rw [hs, readToken?, if_pos rfl]
    unfold readTag?
    split
    · next u e =>
      have hhead := hn.1
      cases name with
      | nil => exact absurd hhead Bool.false_ne_true
      | cons c n =>
        have hc : c.isAlpha = true := hhead
        rw [(List.cons.inj e).1] at hc
        exact absurd hc (by decide)
    · rw [readName?_append hn hr, Option.bind_some, readProperties?_write hps, Option.map_some]
  | closeTag name =>
    have hs : (Token.closeTag name).source ++ r = '<' :: '/' :: (name ++ '>' :: r) := by
      simp [Token.source, Token.write]
    have hr : ∀ c ∈ ('>' :: r).head?, Html.isNameChar c = false := fun c hc => by
      rw [← Option.mem_some_iff.1 hc]
      decide
    rw [hs, readToken?, if_pos rfl, readTag?, readName?_append h hr, Option.bind_some,
      expect?_cons (by decide), Option.map_some]

theorem source_ne_nil {t : Token} (h : t.Plain) : t.source ≠ [] := by
  intro e
  have hr := readToken?_source h []
  rw [e] at hr
  cases hr

theorem read?_flatMap_source {ts : List Token} (h : ∀ t ∈ ts, t.Plain) :
    read? (ts.flatMap Token.source) = some ts := by
  induction ts with
  | nil => rw [List.flatMap_nil, read?]
  | cons t ts ih =>
    obtain ⟨ht, hts⟩ := List.forall_mem_cons.1 h
    have hr := readToken?_source ht (ts.flatMap Token.source)
    obtain ⟨c, s, e⟩ := List.exists_cons_of_ne_nil (source_ne_nil ht)
    rw [e, List.cons_append] at hr
    rw [List.flatMap_cons, e, List.cons_append, read?, hr]
    dsimp only
    rw [ih hts, Option.map_some]

/-! ## what is read is plain -/

theorem closed_of_readValue? {s r : Text} {v : Value} (h : readValue? s = some (v, r)) :
    v.Closed := by
  unfold readValue? at h
  split at h
  · cases h
  split at h
  · split at h
    · cases h
    · rw [← (Prod.mk.inj (Option.some.inj h)).1]
      intro hm
      exact absurd (List.mem_takeWhile_imp hm) (by decide)
  split at h
  · split at h
    · obtain ⟨p, -, h⟩ := Option.bind_eq_some_iff.1 h
      obtain ⟨u, -, h⟩ := Option.map_eq_some_iff.1 h
      rw [← (Prod.mk.inj h).1]
      trivial
    · obtain ⟨p, -, h⟩ := Option.map_eq_some_iff.1 h
      rw [← (Prod.mk.inj h).1]
      trivial
  · cases h

theorem plain_of_readProperty? {s r : Text} {p : Property} (h : readProperty? s = some (p, r)) :
    p.Plain := by
  have hc : ∀ c ∈ s.takeWhile isPropertyChar, isPropertyChar c = true :=
    fun c hc => List.mem_takeWhile_imp hc
  unfold readProperty? at h
  dsimp only at h
  split at h
  · cases h
  next hn =>
  have hname : IsPropertyName (s.takeWhile isPropertyChar) := ⟨mt List.isEmpty_iff.2 hn, hc⟩
  split at h
  · obtain ⟨q, hq, h⟩ := Option.map_eq_some_iff.1 h
    rw [← (Prod.mk.inj h).1]
    refine ⟨hname, fun v hv => ?_⟩
    rw [← Option.mem_some_iff.1 hv]
    exact closed_of_readValue? hq
  · rw [← (Prod.mk.inj (Option.some.inj h)).1]
    exact ⟨hname, fun v hv => by cases hv⟩

theorem plain_of_readProperties? {s r : Text} {ps : List Property} {b : Bool}
    (h : readProperties? s = some (ps, b, r)) : ∀ p ∈ ps, p.Plain := by
  induction hk : s.length using Nat.strongRecOn generalizing s ps b r with
  | _ k ih =>
    rw [readProperties?] at h
    split at h
    · rw [← (Prod.mk.inj (Option.some.inj h)).1]
      exact fun p hp => absurd hp List.not_mem_nil
    split at h
    · obtain ⟨u, -, h⟩ := Option.map_eq_some_iff.1 h
      rw [← (Prod.mk.inj h).1]
      exact fun p hp => absurd hp List.not_mem_nil
    split at h
    · cases h
    · next p u hu =>
      have hlu := length_of_readProperty? hu
      have hls := length_skip_le s
      obtain ⟨⟨qs, c, t⟩, hq, h⟩ := Option.map_eq_some_iff.1 h
      rw [← (Prod.mk.inj h).1]
      exact List.forall_mem_cons.2 ⟨plain_of_readProperty? hu, ih u.length (by omega) hq rfl⟩

theorem isTagName_of_readName? {s n r : Text} (h : readName? s = some (n, r)) : IsTagName n := by
  unfold readName? at h
  split at h
  · next ha =>
    rw [← (Prod.mk.inj (Option.some.inj h)).1]
    refine ⟨?_, fun c hc => List.mem_takeWhile_imp hc⟩
    cases s with
    | nil => exact absurd ha Bool.false_ne_true
    | cons c s =>
      have hc : c.isAlpha = true := ha
      have hn : Html.isNameChar c = true := by simp [Html.isNameChar, Char.isAlphanum, hc]
      rw [List.takeWhile_cons_of_pos hn]
      exact hc
  · cases h

theorem plain_of_readTag? {s r : Text} {t : Token} (h : readTag? s = some (t, r)) : t.Plain := by
  unfold readTag? at h
  split at h
  · obtain ⟨n, hn, h⟩ := Option.bind_eq_some_iff.1 h
    obtain ⟨u, -, h⟩ := Option.map_eq_some_iff.1 h
    rw [← (Prod.mk.inj h).1]
    exact isTagName_of_readName? hn
  · obtain ⟨n, hn, h⟩ := Option.bind_eq_some_iff.1 h
    obtain ⟨⟨ps, b, u⟩, hp, h⟩ := Option.map_eq_some_iff.1 h
    rw [← (Prod.mk.inj h).1]
    exact ⟨isTagName_of_readName? hn, plain_of_readProperties? hp⟩

/-- **A token that is read is plain.** -/
theorem plain_of_readToken? {s r : Text} {t : Token} (h : readToken? s = some (t, r)) :
    t.Plain := by
  unfold readToken? at h
  split at h
  · cases h
  split at h
  · exact plain_of_readTag? h
  split at h
  · obtain ⟨p, -, h⟩ := Option.map_eq_some_iff.1 h
    rw [← (Prod.mk.inj h).1]
    trivial
  split at h
  · cases h
  · next hc =>
    rw [← (Prod.mk.inj (Option.some.inj h)).1]
    exact Bool.eq_false_iff.2 hc

theorem plain_of_read? {s : Text} {ts : List Token} (h : read? s = some ts) :
    ∀ t ∈ ts, t.Plain := by
  induction hk : s.length using Nat.strongRecOn generalizing s ts with
  | _ k ih =>
    cases s with
    | nil =>
      rw [read?] at h
      rw [← Option.some.inj h]
      exact fun t ht => absurd ht List.not_mem_nil
    | cons c r =>
      rw [read?] at h
      split at h
      · cases h
      · next t rest ht =>
        have hlt := length_of_readToken? ht
        obtain ⟨us, hus, h⟩ := Option.map_eq_some_iff.1 h
        rw [← h]
        exact List.forall_mem_cons.2 ⟨plain_of_readToken? ht, ih rest.length (by omega) hus rfl⟩

/-- **The text of tokens is read as these tokens when they are plain, and not otherwise.** -/
theorem read?_flatMap_source_iff {ts : List Token} :
    read? (ts.flatMap Token.source) = some ts ↔ ∀ t ∈ ts, t.Plain :=
  ⟨plain_of_read?, read?_flatMap_source⟩

end MarkdownModule.Jsx

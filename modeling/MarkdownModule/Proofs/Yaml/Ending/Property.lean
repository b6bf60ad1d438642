import MarkdownModule.Proofs.Yaml.Ending.Cursor
import MarkdownModule.Yaml.Token.Property

/-!
# Anchors, tags and directives before line endings

Line endings at the end of a text do not change what is read here.

* `Yaml.readAnchorName_alike`   the name of an anchor
* `Yaml.readTag_alike`          a tag
* `Yaml.readDirective_alike`    a directive
-/

namespace MarkdownModule.Yaml

theorem hexDigit_ending {c : Char} (hc : c = '\r' ∨ c = '\n') : Json.hexDigit? c = none := by
  rcases hc with rfl | rfl <;> rfl

/-- an escaped byte by its three characters -/
theorem escapedByte?_eq (s : Text) :
    escapedByte? s =
      if s[0]? = some '%' then do
        some ((← s[1]?.bind Json.hexDigit?) * 16 + (← s[2]?.bind Json.hexDigit?))
      else none := by
  unfold escapedByte?
  split
  · next a b r => rfl
  · next hno =>
    match s with
    | [] => rfl
    | [c] => simp
    | [c, a] =>
      split
      · show none = (Json.hexDigit? a).bind fun n => (none : Option Nat).bind _
        cases Json.hexDigit? a <;> rfl
      · rfl
    | c :: a :: b :: r =>
      rw [if_neg]
      intro hc
      exact hno a b r (by rw [Option.some.inj hc])

theorem length_of_escapedByte? {s : Text} {n : Nat} (h : escapedByte? s = some n) :
    3 ≤ s.length := by
  unfold escapedByte? at h
  split at h
  · exact Nat.le_add_left 3 _
  · exact nomatch h

theorem length_of_readTail? {bits k v : Nat} {s : Text} (h : readTail? bits k s = some v) :
    3 * k ≤ s.length := by
  induction k generalizing bits s with
  | zero => exact Nat.zero_le _
  | succ k ih =>
    unfold readTail? at h
    obtain ⟨n, hn, h⟩ := Option.bind_eq_some_iff.1 h
    split at h
    · have hrest := ih h
      have hbyte := length_of_escapedByte? hn
      rw [List.length_drop] at hrest
      omega
    · exact nomatch h

theorem pos_of_leadingByte? {n k bits : Nat} (h : leadingByte? n = some (k, bits)) : 0 < k := by
  unfold leadingByte? at h
  grind

/-- an escaped character is written by some characters of the text -/
theorem length_of_readEscapedChar? {s : Text} {c : Char} {n : Nat}
    (h : readEscapedChar? s = some (c, n)) : 0 < n ∧ n ≤ s.length := by
  unfold readEscapedChar? at h
  obtain ⟨byte, hbyte, h⟩ := Option.bind_eq_some_iff.1 h
  obtain ⟨⟨k, bits⟩, hlead, h⟩ := Option.bind_eq_some_iff.1 h
  obtain ⟨v, htail, h⟩ := Option.bind_eq_some_iff.1 h
  have hk := pos_of_leadingByte? hlead
  have hn : n = 3 * k := by
    split at h
    · exact nomatch h
    · exact (Prod.mk.inj (Option.some.inj h)).2.symm
  have hthree := length_of_escapedByte? hbyte
  have hrest := length_of_readTail? htail
  rw [List.length_drop] at hrest
  omega

section
variable {e : Text} (he : Endings e)
include he

/-! ## texts -/

theorem endsAnchor_endings (s : Text) : endsAnchor (s ++ e) = endsAnchor s := by
  cases s with
  | nil =>
    cases e with
    | nil => rfl
    | cons c e => simp [endsAnchor, isBreak_of_ending (endings_cons.1 he).1]
  | cons c s => rfl

theorem bind_endings {α : Type} {f : Char → Option α} (hf : ∀ c, c = '\r' ∨ c = '\n' → f c = none)
    (s : Text) (i : Nat) : (s ++ e)[i]?.bind f = s[i]?.bind f := by
  by_cases hi : i < s.length
  · rw [List.getElem?_append_left hi]
  · rw [List.getElem?_append_right (Nat.le_of_not_lt hi), List.getElem?_eq_none (Nat.le_of_not_lt hi)]
    cases hc : e[i - s.length]? with
    | none => rfl
    | some c => exact hf c (he c (List.mem_of_getElem? hc))

theorem escapedByte_endings (s : Text) : escapedByte? (s ++ e) = escapedByte? s := by
  have hhead : (s ++ e)[0]? = some '%' ↔ s[0]? = some '%' := by
    rw [← List.head?_eq_getElem?, ← List.head?_eq_getElem?]
    exact head_eq_endings he (by decide) s
  rw [escapedByte?_eq, escapedByte?_eq, bind_endings he (fun _ => hexDigit_ending),
    bind_endings he (fun _ => hexDigit_ending)]
  simp only [hhead]

theorem readTail_endings (bits k : Nat) (s : Text) :
    readTail? bits k (s ++ e) = readTail? bits k s := by
  induction k generalizing bits s with
  | zero => rfl
  | succ k ih =>
    unfold readTail?
    rw [escapedByte_endings he]
    cases hbyte : escapedByte? s with
    | none => rfl
    | some n =>
      dsimp only [Option.bind_eq_bind, Option.bind_some]
      rw [List.drop_append_of_le_length (length_of_escapedByte? hbyte), ih]

theorem readEscapedChar_endings (s : Text) : readEscapedChar? (s ++ e) = readEscapedChar? s := by
  unfold readEscapedChar?
  rw [escapedByte_endings he]
  cases hbyte : escapedByte? s with
  | none => rfl
  | some n =>
    dsimp only [Option.bind_eq_bind, Option.bind_some]
    rw [List.drop_append_of_le_length (length_of_escapedByte? hbyte)]
    simp only [readTail_endings he]

/-! ## anchors -/

section
variable {c d : Cursor} (h : c.Follows e d)
include h

theorem readAnchorName_alike :
    Alike (Reads e c.rest.length) (readAnchorName c) (readAnchorName d) := by
  have hskip := h.skip he (n := (c.rest.takeWhile isNameChar).length)
    (List.takeWhile_sublist _).length_le
  have hends : endsAnchor (d.skip (c.rest.takeWhile isNameChar).length).rest =
      endsAnchor (c.skip (c.rest.takeWhile isNameChar).length).rest := by
    obtain ⟨e', he', hd⟩ := hskip.exists_rest he
    rw [hd, endsAnchor_endings he']
  unfold readAnchorName
  dsimp only
  rw [h.takeWhile he (by decide), hends]
  split
  · exact .error _ _
  · exact .ok ⟨rfl, hskip, c.length_skip_le _⟩

/-! ## tags -/

omit h in
theorem readUri_alike (full : Bool) {n m k : Nat} (h : c.Follows e d) (hn : c.rest.length < n)
    (hm : d.rest.length < m) (hk : c.rest.length ≤ k) :
    Alike (Reads e k) (readUri full n c) (readUri full m d) := by
  induction n generalizing m c d with
  | zero => exact absurd hn (Nat.not_lt_zero _)
  | succ n ih =>
    obtain ⟨m, rfl⟩ := Nat.exists_eq_succ_of_ne_zero (Nat.ne_of_gt (Nat.zero_lt_of_lt hm))
    have hstep {i : Nat} (x : Char) (hi : 0 < i) (hic : i ≤ c.rest.length) :
        Alike (Reads e k) ((readUri full n (c.skip i)).map fun t => (x :: t.1, t.2))
          ((readUri full m (d.skip i)).map fun t => (x :: t.1, t.2)) := by
      have hlc := Cursor.length_skip_lt hi hic
      have hld := Cursor.length_skip_lt hi (Nat.le_trans hic (h.length_le he))
      refine (ih (h.skip he hic) (by omega) (by omega) (by omega)).map fun p q hpq => ?_
      exact ⟨congrArg (x :: ·) hpq.value, hpq.cursor, hpq.length⟩
    have hstop : Alike (Reads e k) (.ok ([], c) : Except Error (Text × Cursor)) (.ok ([], d)) :=
      h.stop [] hk
    unfold readUri
    cases hc : c.rest with
    | nil =>
      have hd := h.atEnd hc
      cases hd' : d.rest with
      | nil => exact hstop
      | cons y s =>
        rw [hd'] at hd
        have hy := (endings_cons.1 hd).1
        have huri : isUriChar full y = false := by
          rcases hy with rfl | rfl <;> cases full <;> decide
        have hescape : y ≠ '%' := by
          rcases hy with rfl | rfl <;> decide
        dsimp only
        rw [if_neg hescape, huri]
        exact hstop
    | cons x r =>
      have hescape := readEscapedChar_endings he (x :: r)
      rw [List.cons_append] at hescape
      rw [h.rest_cons hc]
      dsimp only
      rw [hescape, ← hc]
      split
      · cases hread : readEscapedChar? c.rest with
        | none => exact .error _ _
        | some p =>
          obtain ⟨hpos, hle⟩ := length_of_readEscapedChar? hread
          exact hstep p.1 hpos hle
      · split
        · exact hstep x Nat.one_pos (by rw [hc]; exact Nat.le_add_left 1 _)
        · exact hstop

theorem readUri1_alike (full : Bool) {k : Nat} (hk : c.rest.length ≤ k) :
    Alike (Reads e k) (readUri1 full c) (readUri1 full d) := by
  refine (readUri_alike he full h (Nat.lt_succ_self _) (Nat.lt_succ_self _) hk).bind ?_
  rintro ⟨t, c'⟩ ⟨t', d'⟩ hr
  obtain rfl : t = t' := hr.value
  dsimp only
  split
  · exact .error _ _
  · exact .ok hr

theorem readHandle_reads (hc : c.startsWith '!' = true) {k : Nat} (hk : c.rest.length ≤ k + 1) :
    Reads e k (readHandle c) (readHandle d) := by
  have hpos := Cursor.length_pos_of_startsWith hc
  have hname : (d.rest.drop 1).takeWhile isNameChar = (c.rest.drop 1).takeWhile isNameChar :=
    (h.skip_of_startsWith he hc).takeWhile he (by decide)
  have hle : ((c.rest.drop 1).takeWhile isNameChar).length + 1 ≤ c.rest.length := by
    have htake := (List.takeWhile_sublist (l := c.rest.drop 1) isNameChar).length_le
    rw [List.length_drop] at htake
    omega
  have hskip := h.skip he hle
  have hlen : (c.skip (((c.rest.drop 1).takeWhile isNameChar).length + 1)).rest.length ≤ k :=
    Nat.le_of_lt_succ (Nat.lt_of_lt_of_le (Cursor.length_skip_lt (Nat.succ_pos _) hle) hk)
  unfold readHandle
  dsimp only
  rw [hname, hskip.startsWith he (by decide)]
  split
  · next hmark =>
    exact ⟨rfl, hskip.skip_of_startsWith he hmark,
      Nat.le_trans (Cursor.length_skip_le _ 1) hlen⟩
  · exact ⟨rfl, hskip, hlen⟩

theorem readTag_alike (hc : c.startsWith '!' = true) {k : Nat} (hk : c.rest.length ≤ k + 1) :
    Alike (Reads e k) (readTag c) (readTag d) := by
  have hone := h.skip_of_startsWith he hc
  have hhandle := readHandle_reads he h hc hk
  have hlt := Cursor.length_skip_lt Nat.one_pos (Cursor.length_pos_of_startsWith hc)
  unfold readTag
  dsimp only
  rw [hone.startsWith he (by decide)]
  split
  · next hopen =>
    have htwo := hone.skip_of_startsWith he hopen
    rw [Cursor.skip_skip, Cursor.skip_skip] at htwo
    have hlen : (c.skip 2).rest.length ≤ k := by
      have hle : ((c.skip 1).skip 1).rest.length ≤ _ := Cursor.length_skip_le _ 1
      rw [Cursor.skip_skip] at hle
      exact Nat.le_of_lt_succ (Nat.lt_of_le_of_lt hle (Nat.lt_of_lt_of_le hlt hk))
    refine (readUri1_alike he htwo true hlen).bind ?_
    rintro ⟨t, c'⟩ ⟨t', d'⟩ hr
    obtain rfl : t = t' := hr.value
    dsimp only
    rw [hr.cursor.startsWith he (by decide)]
    split
    · next hclose =>
      exact .ok ⟨rfl, hr.cursor.skip_of_startsWith he hclose,
        Nat.le_trans (Cursor.length_skip_le _ 1) hr.length⟩
    · exact .error _ _
  · generalize readHandle c = p at hhandle ⊢
    generalize readHandle d = q at hhandle ⊢
    obtain ⟨name, c'⟩ := p
    obtain ⟨name', d'⟩ := q
    obtain rfl : name = name' := hhandle.value
    dsimp only
    split
    · refine (readUri1_alike he hhandle.cursor false hhandle.length).bind ?_
      rintro ⟨t, c''⟩ ⟨t', d''⟩ hr
      obtain rfl : t = t' := hr.value
      exact .ok ⟨rfl, hr.cursor, hr.length⟩
    · refine (readUri_alike he false hhandle.cursor (Nat.lt_succ_self _) (Nat.lt_succ_self _)
        hhandle.length).bind ?_
      rintro ⟨t, c''⟩ ⟨t', d''⟩ hr
      obtain rfl : t = t' := hr.value
      exact .ok ⟨rfl, hr.cursor, hr.length⟩

/-! ## directives -/

theorem readVersionNumber_alike {k : Nat} (hk : c.rest.length ≤ k) :
    Alike (Reads e k) (readVersionNumber c) (readVersionNumber d) := by
  unfold readVersionNumber
  dsimp only
  rw [h.takeWhile he (by decide)]
  split
  · exact .error _ _
  · exact .ok ⟨rfl, h.skip he (List.takeWhile_sublist _).length_le,
      Nat.le_trans (c.length_skip_le _) hk⟩

theorem readVersion_alike {k : Nat} (hk : c.rest.length ≤ k) :
    Alike (Reads e k) (readVersion c) (readVersion d) := by
  unfold readVersion
  refine (readVersionNumber_alike he (h.skipWhile he (by decide))
    (Nat.le_trans (c.length_skip_le _) hk)).bind ?_
  rintro ⟨major, c'⟩ ⟨major', d'⟩ hr
  obtain rfl : major = major' := hr.value
  dsimp only
  rw [hr.cursor.startsWith he (by decide)]
  split
  · next hpoint =>
    refine (readVersionNumber_alike he (hr.cursor.skip_of_startsWith he hpoint)
      (Nat.le_trans (Cursor.length_skip_le _ 1) hr.length)).bind ?_
    rintro ⟨minor, c''⟩ ⟨minor', d''⟩ hr'
    obtain rfl : minor = minor' := hr'.value
    exact .ok ⟨rfl, hr'.cursor, hr'.length⟩
  · exact .error _ _

theorem readTagDirective_alike {k : Nat} (hk : c.rest.length ≤ k) :
    Alike (Reads e k) (readTagDirective c) (readTagDirective d) := by
  have hgap := h.skipWhile he (p := isGap) (by decide)
  unfold readTagDirective
  dsimp only
  rw [hgap.startsWith he (by decide)]
  split
  · exact .error _ _
  · next hmark =>
    have hmark : (c.skipWhile isGap).startsWith '!' = true := by simpa using hmark
    have hhandle := readHandle_reads he hgap hmark (k := k)
      (Nat.le_succ_of_le (Nat.le_trans (c.length_skip_le _) hk))
    generalize readHandle (c.skipWhile isGap) = p at hhandle ⊢
    generalize readHandle (d.skipWhile isGap) = q at hhandle ⊢
    obtain ⟨name, c'⟩ := p
    obtain ⟨name', d'⟩ := q
    obtain rfl : name = name' := hhandle.value
    dsimp only
    rw [hhandle.cursor.head_any he (by decide)]
    split
    · exact .error _ _
    · refine (readUri1_alike he (hhandle.cursor.skipWhile he (by decide)) true
        (Nat.le_trans (Cursor.length_skip_le _ _) hhandle.length)).bind ?_
      rintro ⟨t, c''⟩ ⟨t', d''⟩ hr
      obtain rfl : t = t' := hr.value
      dsimp only
      rw [hr.cursor.atGap he]
      split
      · exact .ok ⟨rfl, hr.cursor, hr.length⟩
      · exact .error _ _

theorem readDirective_alike (hc : c.startsWith '%' = true) {k : Nat} (hk : c.rest.length ≤ k + 1) :
    Alike (Reads e k) (readDirective c) (readDirective d) := by
  have hone := h.skip_of_startsWith he hc
  have hlt := Cursor.length_skip_lt Nat.one_pos (Cursor.length_pos_of_startsWith hc)
  have hskip := hone.skip he (n := ((c.skip 1).rest.takeWhile isNameChar).length)
    (List.takeWhile_sublist _).length_le
  have hlen : ((c.skip 1).skip ((c.skip 1).rest.takeWhile isNameChar).length).rest.length ≤ k :=
    Nat.le_trans (Cursor.length_skip_le _ _) (by omega)
  have hend : ∀ p q : Token × Cursor, Reads e k p q → Alike (Reads e k)
      (if atLineEnd p.2.skipComment.rest then .ok (p.1, p.2.skipComment.skipBreak)
        else .error .malformedDirective : Except Error (Token × Cursor))
      (if atLineEnd q.2.skipComment.rest then .ok (q.1, q.2.skipComment.skipBreak)
        else .error .malformedDirective) := by
    intro p q hpq
    have hcomment := hpq.cursor.skipComment he
    rw [hcomment.atLineEnd he]
    split
    · refine .ok ⟨hpq.value, hcomment.skipBreak he, ?_⟩
      exact Nat.le_trans (Cursor.length_skipBreak_le _)
        (Nat.le_trans (Cursor.length_skipComment_le _) hpq.length)
    · exact .error _ _
  unfold readDirective
  dsimp only
  rw [hone.takeWhile he (by decide), hskip.atGap he]
  split
  · exact .error _ _
  · split
    · exact (readVersion_alike he hskip hlen).bind hend
    · split
      · exact (readTagDirective_alike he hskip hlen).bind hend
      · exact .error _ _

end

end

end MarkdownModule.Yaml

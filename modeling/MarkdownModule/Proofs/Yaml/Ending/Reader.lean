import MarkdownModule.Proofs.Yaml.Bracket
import MarkdownModule.Proofs.Yaml.Ending.BlockScalar
import MarkdownModule.Proofs.Yaml.Ending.InlineScalar
import MarkdownModule.Proofs.Yaml.Ending.Property

/-!
# The tokens of a text with line endings after it

* `Yaml.Reader.Follows`           a reader in the longer text, in step with one in the shorter text
* `Yaml.Reader.Ready.token`       one more token
* `Yaml.Reader.Follows.skipGaps`  the white space before a token
-/

namespace MarkdownModule.Yaml

namespace Reader

/-! ## readers in step -/

def extend (r : Reader) (e : Text) : Reader := { r with cursor := r.cursor.extend e }

/-- A reader in the longer text follows one in the shorter text.  At the end of the shorter text it
may have seen the end of the line already, so that a key may begin. -/
structure Follows (e : Text) (r s : Reader) : Prop where
  state : s = { r with cursor := s.cursor, keyAllowed := s.keyAllowed }
  cursor : r.cursor.Follows e s.cursor
  allowed : r.cursor.rest ≠ [] → s.keyAllowed = r.keyAllowed

theorem Follows.eq_extend {e : Text} {r s : Reader} (h : r.Follows e s)
    (hr : r.cursor.rest ≠ []) : s = r.extend e := by
  rw [h.state, h.cursor.inside hr, h.allowed hr]
  rfl

/-- the reader in the longer text is the same, and both are where `r` is, inside of as many brackets -/
structure Keeps (e : Text) (r a b : Reader) : Prop where
  same : b = a.extend e
  cursor : a.cursor = r.cursor
  depth : a.flowDepth = r.flowDepth

theorem Keeps.inFlow {e : Text} {r a b : Reader} (h : Keeps e r a b) : a.inFlow = r.inFlow :=
  congrArg (fun n => decide (0 < n)) h.depth

theorem Keeps.trans {e : Text} {r r' a b : Reader} (h : Keeps e r' a b)
    (hcursor : r'.cursor = r.cursor) (hdepth : r'.flowDepth = r.flowDepth) : Keeps e r a b :=
  ⟨h.same, h.cursor.trans hcursor, h.depth.trans hdepth⟩

section
variable (r : Reader) (e : Text)

theorem setKeyPlace_extend (k : Option KeyPlace) :
    (r.extend e).setKeyPlace k = (r.setKeyPlace k).extend e := rfl

theorem dropKey_keeps : Alike (Keeps e r) r.dropKey (r.extend e).dropKey := by
  have hplace : (r.extend e).keyPlace = r.keyPlace := rfl
  unfold dropKey
  rw [hplace]
  split
  · exact .ite (fun _ => .error _ _) fun _ => .ok ⟨rfl, rfl, rfl⟩
  · exact .ok ⟨rfl, rfl, rfl⟩

theorem saveKey_keeps : Alike (Keeps e r) r.saveKey (r.extend e).saveKey := by
  refine .ite (fun _ => (dropKey_keeps r e).bind ?_) fun _ => .ok ⟨rfl, rfl, rfl⟩
  rintro a b ⟨rfl, ha, hdepth⟩
  exact .ok ⟨rfl, ha, hdepth⟩

theorem closeTo_keeps (column : Int) :
    Keeps e r (r.closeTo column) ((r.extend e).closeTo column) := by
  have hflow : (r.extend e).inFlow = r.inFlow := rfl
  unfold closeTo
  rw [hflow]
  split <;> exact ⟨rfl, rfl, rfl⟩

theorem openBlock_keeps (column place : Nat) (t : Token) :
    Keeps e r (r.openBlock column place t) ((r.extend e).openBlock column place t) := by
  have hcond : (!(r.extend e).inFlow && (r.extend e).indentation < column) =
      (!r.inFlow && r.indentation < column) := rfl
  unfold openBlock
  rw [hcond]
  split <;> exact ⟨rfl, rfl, rfl⟩

theorem outside_keeps : Alike (Keeps e r) r.outside (r.extend e).outside := by
  have hclose := closeTo_keeps r e (-1)
  unfold outside
  rw [hclose.same]
  refine (dropKey_keeps _ e).bind ?_
  rintro a b ⟨rfl, ha, hdepth⟩
  exact .ok ⟨rfl, ha.trans hclose.cursor, hdepth.trans hclose.depth⟩

/-- a block that may begin, and no key -/
theorem openBlock_dropKey_keeps (column place : Nat) (t : Token) :
    Alike (Keeps e r) (r.openBlock column place t).dropKey
      ((r.extend e).openBlock column place t).dropKey := by
  have hopen := openBlock_keeps r e column place t
  rw [hopen.same]
  exact (dropKey_keeps _ e).mono fun a b h => h.trans hopen.cursor hopen.depth

end

/-! ## tokens -/

/-- there is a token ahead, and at most `k` characters after its first one -/
structure Ready (k : Nat) (r : Reader) : Prop where
  whole : r.cursor.rest.getLast? ≠ some '\r'
  rest : r.cursor.rest ≠ []
  length : r.cursor.rest.length ≤ k + 1

/-- a literal or a folded scalar begins at the cursor, and the line breaks at its end count -/
def startsScalar (c : Cursor) : Bool :=
  (c.startsWith '|' || c.startsWith '>') && countsBreaks (c.skip 1)

/-- Both readers have gone on.  They are in step, unless both texts are read to their ends with a
scalar whose line breaks count. -/
structure Advances (e : Text) (k : Nat) (counts : Bool) (a b : Reader) : Prop where
  follows : (a.cursor.rest = [] → counts = false) → a.Follows e b
  length : a.cursor.rest.length ≤ k

theorem Advances.of_follows {e : Text} {k : Nat} {counts : Bool} {a b : Reader} (h : a.Follows e b)
    (hk : a.cursor.rest.length ≤ k) : Advances e k counts a b := ⟨fun _ => h, hk⟩

theorem advances_push {e : Text} {k : Nat} {counts : Bool} (a : Reader) {p q : Cursor}
    (hpq : p.Follows e q) (hp : p.rest.length ≤ k) (t : Token) (b : Bool) :
    Advances e k counts { a.push t with cursor := p, keyAllowed := b }
      { (a.extend e).push t with cursor := q, keyAllowed := b } :=
  .of_follows ⟨rfl, hpq, fun _ => rfl⟩ hp

theorem Ready.pos {k : Nat} {r : Reader} (h : r.Ready k) : 0 < r.cursor.rest.length :=
  List.length_pos_iff.2 h.rest

/-- the tokens that have been read do not matter here -/
theorem Ready.of_cursor {k : Nat} {r a : Reader} (h : r.Ready k) (ha : a.cursor = r.cursor) :
    a.Ready k where
  whole := ha ▸ h.whole
  rest := ha ▸ h.rest
  length := ha ▸ h.length

section
variable {e : Text} (he : Endings e) {k : Nat} {counts : Bool} {r : Reader} (h : r.Ready k)
include he h

theorem Ready.cursor : r.cursor.Follows e (r.cursor.extend e) := Cursor.follows_extend he h.whole

/-- a token of `n` characters, with which the brackets and the places of keys may change -/
theorem Ready.pushOver {n : Nat} (hn : 0 < n) (hle : n ≤ r.cursor.rest.length) (t : Token)
    (ks : List (Option KeyPlace)) (depth : Nat) (b : Bool) : Advances e k counts
      { r.pushOver n t with keys := ks, flowDepth := depth, keyAllowed := b }
      { (r.extend e).pushOver n t with keys := ks, flowDepth := depth, keyAllowed := b } := by
  have hlt := Cursor.length_skip_lt hn hle
  have hlen := h.length
  refine .of_follows ⟨rfl, (h.cursor he).skip he hle, fun _ => rfl⟩ ?_
  show (r.cursor.skip n).rest.length ≤ k
  omega

/-- a token of one character -/
theorem Ready.pushOver_one (t : Token) (b : Bool) : Advances e k counts
    { r.pushOver 1 t with keyAllowed := b } { (r.extend e).pushOver 1 t with keyAllowed := b } :=
  h.pushOver he Nat.one_pos h.pos t r.keys r.flowDepth b

/-- the place after the first character of the token -/
theorem Ready.skip_one : (r.cursor.skip 1).Follows e ((r.cursor.extend e).skip 1) :=
  (h.cursor he).skip he h.pos

omit he in
theorem Ready.length_skip_one : (r.cursor.skip 1).rest.length ≤ k := by
  have hlt := Cursor.length_skip_lt Nat.one_pos h.pos
  have hlen := h.length
  omega

theorem Ready.openFlow (t : Token) :
    Alike (Advances e k counts) (r.openFlow t) ((r.extend e).openFlow t) := by
  refine (saveKey_keeps r e).bind ?_
  rintro a b ⟨rfl, ha, -⟩
  have h := h.of_cursor ha
  exact .ok (h.pushOver he Nat.one_pos h.pos t _ _ _)

theorem Ready.closeFlow (t : Token) :
    Alike (Advances e k counts) (r.closeFlow t) ((r.extend e).closeFlow t) := by
  refine (dropKey_keeps r e).bind ?_
  rintro a b ⟨rfl, ha, -⟩
  have h := h.of_cursor ha
  exact .ok (h.pushOver he Nat.one_pos h.pos t _ _ _)

theorem Ready.flowEntry : Alike (Advances e k counts) r.flowEntry (r.extend e).flowEntry := by
  refine (dropKey_keeps r e).bind ?_
  rintro a b ⟨rfl, ha, -⟩
  exact .ok ((h.of_cursor ha).pushOver_one he _ _)

theorem Ready.blockEntry : Alike (Advances e k counts) r.blockEntry (r.extend e).blockEntry := by
  refine .ite (fun _ => .error _ _) fun _ => (openBlock_dropKey_keeps r e _ _ _).bind ?_
  rintro a b ⟨rfl, ha, -⟩
  exact .ok ((h.of_cursor ha).pushOver_one he _ _)

theorem Ready.keyMark : Alike (Advances e k counts) r.keyMark (r.extend e).keyMark := by
  refine .ite (fun _ => .error _ _) fun _ => (openBlock_dropKey_keeps r e _ _ _).bind ?_
  rintro a b ⟨rfl, ha, -⟩
  exact .ok ((h.of_cursor ha).pushOver_one he _ _)

theorem Ready.valueMark : Alike (Advances e k counts) r.valueMark (r.extend e).valueMark := by
  have hplace : (r.extend e).keyPlace = r.keyPlace := rfl
  unfold Reader.valueMark
  rw [hplace]
  split
  · next p _ =>
    obtain ⟨hopen, ha, -⟩ :=
      openBlock_keeps (r.putIn p.tokenCount .key) e p.column p.tokenCount .blockMappingStart
    have hput : (r.extend e).putIn p.tokenCount .key = (r.putIn p.tokenCount .key).extend e := rfl
    dsimp only
    rw [hput, hopen, setKeyPlace_extend]
    generalize (r.putIn p.tokenCount .key).openBlock _ _ _ = a at ha ⊢
    exact .ok (Ready.pushOver_one he (r := a.setKeyPlace none) (h.of_cursor ha) _ _)
  · have hvalue : ∀ {a b : Reader}, Keeps e r a b → Advances e k counts
        { a.pushOver 1 .value with keyAllowed := !a.inFlow }
        { b.pushOver 1 .value with keyAllowed := !b.inFlow } := by
      rintro a b ⟨rfl, ha, -⟩
      exact (h.of_cursor ha).pushOver_one he _ _
    exact .ite (fun _ => .error _ _) fun _ => .ok (hvalue (openBlock_keeps r e _ _ _))

theorem Ready.named (t : Text → Token) :
    Alike (Advances e k counts) (r.named t) ((r.extend e).named t) := by
  refine (saveKey_keeps r e).bind ?_
  rintro a b ⟨rfl, ha, -⟩
  have h := h.of_cursor ha
  refine (readAnchorName_alike he (h.skip_one he)).bind ?_
  rintro ⟨name, p⟩ ⟨name', q⟩ hread
  obtain rfl : name = name' := hread.value
  exact .ok (advances_push a hread.cursor (Nat.le_trans hread.length h.length_skip_one) _ _)

theorem Ready.tag (hc : r.cursor.startsWith '!' = true) :
    Alike (Advances e k counts) r.tag (r.extend e).tag := by
  refine (saveKey_keeps r e).bind ?_
  rintro a b ⟨rfl, ha, -⟩
  have h := h.of_cursor ha
  refine (readTag_alike he (h.cursor he) (ha ▸ hc) h.length).bind ?_
  rintro ⟨t, p⟩ ⟨t', q⟩ hread
  obtain rfl : t = t' := hread.value
  have hpq : p.Follows e q := hread.cursor
  have hflow : (a.extend e).inFlow = a.inFlow := rfl
  dsimp only
  rw [hpq.atGap he, hpq.startsWith he (by decide), hflow]
  exact .ite (fun _ => .ok (advances_push a hpq hread.length _ _)) fun _ => .error _ _

theorem Ready.blockScalar (literal : Bool) (hcounts : countsBreaks (r.cursor.skip 1) = counts) :
    Alike (Advances e k counts) (r.blockScalar literal) ((r.extend e).blockScalar literal) := by
  refine (dropKey_keeps r e).bind ?_
  rintro a b ⟨rfl, ha, -⟩
  have h := h.of_cursor ha
  refine (readBlockScalar_alike he literal a.indentation (h.skip_one he) h.length_skip_one).bind ?_
  rintro ⟨t, p⟩ ⟨t', q⟩ ⟨hpq, hp, ht⟩
  refine .ok ⟨fun hstrip => ?_, hp⟩
  obtain rfl : t = t' := ht fun hend => by
    rw [ha, hcounts]
    exact hstrip hend
  exact ⟨rfl, hpq, fun _ => rfl⟩

theorem Ready.quotedScalar {q : Char} (hq : NoEnding (· == q))
    (hc : r.cursor.startsWith q = true) :
    Alike (Advances e k counts) (r.quotedScalar q) ((r.extend e).quotedScalar q) := by
  refine (saveKey_keeps r e).bind ?_
  rintro a b ⟨rfl, ha, -⟩
  have h := h.of_cursor ha
  refine (readQuoted_alike he hq (h.cursor he) (ha ▸ hc) h.length).bind ?_
  rintro ⟨t, p⟩ ⟨t', q⟩ hread
  obtain rfl : t = t' := hread.value
  exact .ok (advances_push a hread.cursor hread.length _ _)

theorem Ready.plainScalar (hmark : (r.cursor.atDocumentMark || r.cursor.startsWith '#') = false)
    (hends : endsPlain r.inFlow r.cursor.rest = false) :
    Alike (Advances e k counts) r.plainScalar (r.extend e).plainScalar := by
  refine (saveKey_keeps r e).bind ?_
  intro a b hkeep
  have hflow := hkeep.inFlow
  obtain ⟨rfl, ha, -⟩ := hkeep
  have h := h.of_cursor ha
  rw [← hflow, ← ha] at hends
  refine (readPlain_alike he (a.indentation + 1).toNat (h.cursor he) (ha ▸ hmark) hends
    h.length).bind ?_
  rintro ⟨t, broken, p⟩ ⟨t', broken', q⟩ ⟨ht, hbroken, hpq, hp⟩
  obtain rfl : t = t' := ht
  exact .ok (.of_follows ⟨rfl, hpq, fun hne => (hbroken hne).symm⟩ hp)

end

/-! ## the next token -/

theorem startsWith_of_rest {c : Cursor} {x : Char} {s : Text} (hc : c.rest = x :: s) (y : Char) :
    c.startsWith y = (x == y) := by
  unfold Cursor.startsWith
  rw [hc]
  rfl

/-- a mark of documents is three characters long -/
theorem length_of_atMark {c : Cursor} {x : Char} (h : c.atMark x = true) : 3 ≤ c.rest.length := by
  unfold Cursor.atMark at h
  rw [Bool.and_eq_true, Bool.and_eq_true] at h
  exact (List.isPrefixOf_iff_prefix.1 h.1.2).length_le

theorem isFlowIndicator_of_not_isIndicator {c : Char} (h : isIndicator c = false) :
    c ≠ ':' ∧ isFlowIndicator c = false := by
  constructor
  · rintro rfl
    exact nomatch h
  · rw [Bool.eq_false_iff]
    intro hflow
    unfold isFlowIndicator at hflow
    simp only [Bool.or_eq_true, decide_eq_true_eq] at hflow
    rcases hflow with (((rfl | rfl) | rfl) | rfl) | rfl <;> exact nomatch h

/-- a plain scalar does not end where it begins -/
theorem endsPlain_of_startsPlain {inFlow : Bool} {c : Char} {rest : Text}
    (h : startsPlain inFlow c rest = true) : endsPlain inFlow (c :: rest) = false := by
  unfold startsPlain at h
  rw [Bool.or_eq_true, Bool.or_eq_true, Bool.not_eq_true', Bool.or_eq_false_iff,
    Bool.or_eq_false_iff, Bool.and_eq_true, Bool.and_eq_true, Bool.and_eq_true] at h
  show (isGap c || isBreak c || (c = ':' && atGap rest) || (inFlow && isFlowIndicator c)) = false
  rcases h with (⟨⟨hgap, hbreak⟩, hindicator⟩ | ⟨hhyphen, -⟩) | ⟨⟨hflow, hmark⟩, hgap⟩
  · obtain ⟨hcolon, hflow⟩ := isFlowIndicator_of_not_isIndicator hindicator
    rw [hgap, hbreak, hflow, decide_eq_false hcolon, Bool.and_false]
    rfl
  · obtain rfl : c = '-' := of_decide_eq_true hhyphen
    rw [show isFlowIndicator '-' = false by decide, Bool.and_false]
    rfl
  · rw [Bool.not_eq_true'] at hflow hgap
    rw [hflow, hgap, Bool.and_false]
    rw [Bool.or_eq_true, decide_eq_true_eq, decide_eq_true_eq] at hmark
    rcases hmark with rfl | rfl <;> rfl

theorem startsPlain_hash (inFlow : Bool) (rest : Text) : startsPlain inFlow '#' rest = false := by
  cases inFlow <;> rfl

section
variable {e : Text} (he : Endings e) {k : Nat} {r : Reader} (h : r.Ready k)
include he h

theorem Ready.directive (hc : r.cursor.startsWith '%' = true) {counts : Bool} :
    Alike (Advances e k counts)
      (r.outside >>= fun a => readDirective a.cursor >>= fun p =>
        .ok { a.push p.1 with cursor := p.2 })
      ((r.extend e).outside >>= fun b => readDirective b.cursor >>= fun p =>
        .ok { b.push p.1 with cursor := p.2 }) := by
  refine (outside_keeps r e).bind ?_
  rintro a b ⟨rfl, ha, -⟩
  have h := h.of_cursor ha
  refine (readDirective_alike he (h.cursor he) (ha ▸ hc) h.length).bind ?_
  rintro ⟨t, p⟩ ⟨t', q⟩ hread
  obtain rfl : t = t' := hread.value
  exact .ok (advances_push a hread.cursor hread.length t a.keyAllowed)

/-- a mark of documents -/
theorem Ready.documentMark {x : Char} (hx : r.cursor.atMark x = true) (t : Token) {counts : Bool} :
    Alike (Advances e k counts) (r.outside.map (·.pushOver 3 t))
      ((r.extend e).outside.map (·.pushOver 3 t)) := by
  refine (outside_keeps r e).map ?_
  rintro a b ⟨rfl, ha, -⟩
  have h := h.of_cursor ha
  exact h.pushOver he (by decide) (ha ▸ length_of_atMark hx) t a.keys a.flowDepth a.keyAllowed

/-- **One more token is read in the same way from both texts.** -/
theorem Ready.token {c : Char} {rest : Text} (hr : r.cursor.rest = c :: rest) :
    Alike (Advances e k (startsScalar r.cursor)) (r.token c rest)
      ((r.extend e).token c (rest ++ e)) := by
  have hcursor := h.cursor he
  have hstarts := startsWith_of_rest hr
  have hcolumn : (r.extend e).cursor.column = r.cursor.column := rfl
  have hflow : (r.extend e).inFlow = r.inFlow := rfl
  have hhyphens : (r.extend e).cursor.atMark '-' = r.cursor.atMark '-' :=
    hcursor.atMark he (by decide)
  have hdots : (r.extend e).cursor.atMark '.' = r.cursor.atMark '.' :=
    hcursor.atMark he (by decide)
  have hgap : atGap (rest ++ e) = atGap rest := atGap_endings he rest
  have hplain : startsPlain r.inFlow c (rest ++ e) = startsPlain r.inFlow c rest := by
    unfold startsPlain
    rw [hgap, head_any_endings he (by decide)]
  have hscalar (hc : c = '|' ∨ c = '>') : countsBreaks (r.cursor.skip 1) = startsScalar r.cursor := by
    unfold startsScalar
    rw [hstarts, hstarts]
    rcases hc with rfl | rfl <;> rfl
  unfold Reader.token
  rw [hcolumn, hflow, hhyphens, hdots, hgap, hplain]
  refine .ite (fun hc => ?_) fun _ => .ite (fun hx => h.documentMark he hx _) fun hhyphens =>
    .ite (fun hx => h.documentMark he hx _) fun hdots => ?_
  · rw [Bool.and_eq_true, decide_eq_true_eq, decide_eq_true_eq] at hc
    exact h.directive he (by rw [hstarts, hc.2]; rfl)
  refine .ite (fun _ => h.openFlow he _) fun _ => .ite (fun _ => h.openFlow he _) fun _ =>
    .ite (fun _ => h.closeFlow he _) fun _ => .ite (fun _ => h.closeFlow he _) fun _ => ?_
  refine .ite (fun _ => h.flowEntry he) fun _ => .ite (fun _ => h.blockEntry he) fun _ =>
    .ite (fun _ => h.keyMark he) fun _ => .ite (fun _ => h.valueMark he) fun _ => ?_
  refine .ite (fun _ => h.named he _) fun _ => .ite (fun _ => h.named he _) fun _ =>
    .ite (fun hc => h.tag he (by rw [hstarts, hc]; rfl)) fun _ => ?_
  refine .ite (fun hc => ?_) fun _ => .ite (fun hc => ?_) fun _ => .ite (fun hc => ?_) fun _ =>
    .ite (fun hc => ?_) fun _ => .error _ _
  · rw [Bool.and_eq_true, decide_eq_true_eq] at hc
    exact h.blockScalar he true (hscalar (.inl hc.1))
  · rw [Bool.and_eq_true, decide_eq_true_eq] at hc
    exact h.blockScalar he false (hscalar (.inr hc.1))
  · rw [Bool.or_eq_true, decide_eq_true_eq, decide_eq_true_eq] at hc
    have hquote : NoEnding (· == c) := by rcases hc with rfl | rfl <;> decide
    exact h.quotedScalar he hquote (by rw [hstarts, beq_self_eq_true])
  · have hne : c ≠ '#' := by
      rintro rfl
      exact absurd hc (by rw [startsPlain_hash]; exact Bool.false_ne_true)
    refine h.plainScalar he ?_ (hr ▸ endsPlain_of_startsPlain hc)
    unfold Cursor.atDocumentMark
    rw [Bool.eq_false_iff.2 hhyphens, Bool.eq_false_iff.2 hdots, hstarts]
    exact beq_eq_false_iff_ne.2 hne

end

/-! ## white space -/

def skipMark (c : Cursor) : Cursor := if c.column = 0 && c.startsWith '\ufeff' then c.skip 1 else c

def skipRemark (c : Cursor) : Cursor :=
  if c.startsWith '#' then c.skipWhile (!isBreak ·) else c

/-- whether a gap is skipped, and is not a tab where a block may begin -/
def skipsGap (r : Reader) (d : Char) : Bool := d = ' ' || (d = '\t' && (r.inFlow || !r.keyAllowed))

/-- the cursor after the gaps of a line and the comment after them -/
def afterGaps (r : Reader) : Cursor := skipRemark ((skipMark r.cursor).skipWhile r.skipsGap)

theorem skipGaps_succ (n : Nat) (r : Reader) : r.skipGaps (n + 1) =
    if r.afterGaps.head?.any isBreak then
      Reader.skipGaps n
        { r with cursor := r.afterGaps.skipBreak, keyAllowed := r.keyAllowed || !r.inFlow }
    else { r with cursor := r.afterGaps } := rfl

/-- what is left after the gaps is the end of what there was -/
theorem exists_drop_afterGaps (r : Reader) : ∃ n, r.afterGaps.rest = r.cursor.rest.drop n := by
  have hskip : ∀ {c : Cursor} (m : Nat), (∃ n, c.rest = r.cursor.rest.drop n) →
      ∃ n, (c.skip m).rest = r.cursor.rest.drop n := by
    rintro c m ⟨n, hn⟩
    refine ⟨n + m, ?_⟩
    show c.rest.drop m = _
    rw [hn, List.drop_drop]
  have hmark : ∃ n, (skipMark r.cursor).rest = r.cursor.rest.drop n := by
    unfold skipMark
    split
    · exact ⟨1, rfl⟩
    · exact ⟨0, rfl⟩
  unfold afterGaps skipRemark
  split
  · exact hskip _ (hskip _ hmark)
  · exact hskip _ hmark

theorem length_afterGaps_le (r : Reader) : r.afterGaps.rest.length ≤ r.cursor.rest.length := by
  obtain ⟨n, hn⟩ := exists_drop_afterGaps r
  rw [hn]
  exact (List.drop_sublist n _).length_le

theorem afterGaps_endings {s : Reader} (hs : Endings s.cursor.rest) :
    Endings s.afterGaps.rest := by
  obtain ⟨n, hn⟩ := exists_drop_afterGaps s
  rw [hn]
  exact hs.drop n

theorem skipGaps_state (n : Nat) (r : Reader) : r.skipGaps n =
    { r with cursor := (r.skipGaps n).cursor, keyAllowed := (r.skipGaps n).keyAllowed } := by
  induction n generalizing r with
  | zero => rfl
  | succ n ih =>
    rw [skipGaps_succ]
    split
    · exact ih _
    · rfl

theorem length_skipGaps_le (n : Nat) (r : Reader) :
    (r.skipGaps n).cursor.rest.length ≤ r.cursor.rest.length := by
  induction n generalizing r with
  | zero => exact Nat.le_refl _
  | succ n ih =>
    rw [skipGaps_succ]
    split
    · exact Nat.le_trans (ih _) (Nat.le_trans (Cursor.length_skipBreak_le _) (length_afterGaps_le r))
    · exact length_afterGaps_le r

/-- a reader in line endings comes to the end of its text -/
theorem rest_skipGaps_endings {m : Nat} {s : Reader} (hs : Endings s.afterGaps.rest)
    (hm : s.cursor.rest.length < m) : (s.skipGaps m).cursor.rest = [] := by
  induction m generalizing s with
  | zero => exact absurd hm (Nat.not_lt_zero _)
  | succ m ih =>
    rw [skipGaps_succ]
    have hle := length_afterGaps_le s
    split
    · next hbreak =>
      have hlt := Cursor.length_skipBreak_lt hbreak
      refine ih (afterGaps_endings ?_) (show s.afterGaps.skipBreak.rest.length < m by omega)
      show Endings s.afterGaps.skipBreak.rest
      rw [Cursor.rest_skipBreak]
      exact hs.drop _
    · next hbreak =>
      show s.afterGaps.rest = []
      cases hrest : s.afterGaps.rest with
      | nil => rfl
      | cons x t =>
        rw [hrest] at hs
        refine absurd ?_ hbreak
        unfold Cursor.head?
        rw [hrest]
        exact isBreak_of_ending (endings_cons.1 hs).1

section
variable {e : Text} (he : Endings e)
include he

theorem afterGaps_follows {r : Reader} (h : r.cursor.Follows e (r.extend e).cursor) :
    r.afterGaps.Follows e (r.extend e).afterGaps := by
  have hmark : (skipMark r.cursor).Follows e (skipMark (r.extend e).cursor) := by
    have hcolumn : (r.extend e).cursor.column = r.cursor.column := rfl
    unfold skipMark
    rw [hcolumn, h.startsWith he (by decide)]
    split
    · next hx => exact h.skip_of_startsWith he (Bool.and_eq_true_iff.1 hx).2
    · exact h
  have hgap := hmark.skipWhile he (p := r.skipsGap) ⟨rfl, rfl⟩
  have hskips : (r.extend e).skipsGap = r.skipsGap := rfl
  unfold afterGaps skipRemark
  rw [hskips, hgap.startsWith he (by decide)]
  split
  · exact hgap.skipWhile he (by decide)
  · exact hgap

/-- **Both readers come to the next token, or both come to the end of their texts.** -/
theorem Follows.skipGaps {n m : Nat} {r s : Reader} (h : r.Follows e s)
    (hn : r.cursor.rest.length < n) (hm : s.cursor.rest.length < m) :
    (r.skipGaps n).Follows e (s.skipGaps m) ∧
      ((r.skipGaps n).cursor.rest = [] → (s.skipGaps m).cursor.rest = []) := by
  have hend : ∀ {n m : Nat} {r s : Reader},
      s = { r with cursor := s.cursor, keyAllowed := s.keyAllowed } →
      (r.skipGaps n).cursor.rest = [] → (s.skipGaps m).cursor.rest = [] →
      (r.skipGaps n).Follows e (s.skipGaps m) ∧
        ((r.skipGaps n).cursor.rest = [] → (s.skipGaps m).cursor.rest = []) := by
    intro n m r s hstate hr hs
    refine ⟨⟨?_, .nil hr (by rw [hs]; exact endings_nil), fun h => absurd hr h⟩, fun _ => hs⟩
    have hr' := skipGaps_state n r
    have hs' := skipGaps_state m s
    generalize r.skipGaps n = a at hr' ⊢
    generalize s.skipGaps m = b at hs' ⊢
    rw [hr', hs', hstate]
  induction n generalizing r s m with
  | zero => exact absurd hn (Nat.not_lt_zero _)
  | succ n ih =>
    by_cases hr : r.cursor.rest = []
    · have hnil : Endings r.cursor.rest := hr ▸ endings_nil
      exact hend h.state (rest_skipGaps_endings (afterGaps_endings hnil) hn)
        (rest_skipGaps_endings (afterGaps_endings (h.cursor.atEnd hr)) hm)
    · obtain rfl := h.eq_extend hr
      have hgap := afterGaps_follows he h.cursor
      by_cases hg : r.afterGaps.rest = []
      · have hnil : Endings r.afterGaps.rest := hg ▸ endings_nil
        exact hend rfl (rest_skipGaps_endings hnil hn) (rest_skipGaps_endings (hgap.atEnd hg) hm)
      · obtain ⟨m, rfl⟩ := Nat.exists_eq_succ_of_ne_zero (Nat.ne_of_gt (Nat.zero_lt_of_lt hm))
        have hle := length_afterGaps_le r
        have hle' := length_afterGaps_le (r.extend e)
        rw [skipGaps_succ, skipGaps_succ, hgap.head hg]
        split
        · next hbreak =>
          have hlt := Cursor.length_skipBreak_lt hbreak
          have hlt' := Cursor.length_skipBreak_lt (hgap.head hg ▸ hbreak)
          refine ih ⟨rfl, hgap.skipBreak he, fun _ => rfl⟩ ?_ ?_
          · show r.afterGaps.skipBreak.rest.length < n
            omega
          · show (r.extend e).afterGaps.skipBreak.rest.length < m
            omega
        · exact ⟨⟨rfl, hgap, fun _ => rfl⟩, fun h => absurd h hg⟩

end

end Reader

end MarkdownModule.Yaml

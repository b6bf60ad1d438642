import MarkdownModule.Proofs.Markdown.Pieces
import MarkdownModule.Proofs.Markdown.Whole
import MarkdownModule.Markdown.Inline.Mail
import Mathlib.Tactic.SplitIfs

/-!
# Reading inline content

* `Markdown.Scope.scan_mark`      the places of the line endings do not steer the reading of a text
* `Markdown.Scope.placesOf_scan`  line endings are read in their order
-/

namespace MarkdownModule.Markdown

/-! ## brackets -/

def Piece.isBracket : Piece → Bool
  | .bracket _ => true
  | _ => false

theorem findBracket?_skip {p : Piece} (hp : p.isBracket = false) (ps : List Piece) :
    findBracket? (p :: ps) = (findBracket? ps).map fun t => (p :: t.1, t.2) := by
  rw [findBracket?]
  rintro b rfl
  cases hp

section
variable {breaks : Nat → Bool} {behind : Text → Text}

theorem Piece.isBracket_mark (p : Piece) : (p.mark breaks behind).isBracket = p.isBracket := by
  cases p with
  | lineEnd place => rcases mark_lineEnd breaks behind place with h | h <;> rw [h] <;> rfl
  | _ => rfl

theorem findBracket?_mark (ps : List Piece) :
    findBracket? (ps.map (Piece.mark breaks behind)) = (findBracket? ps).map fun t =>
      (t.1.map (Piece.mark breaks behind), { t.2.1 with after := behind t.2.1.after },
        t.2.2.map (Piece.mark breaks behind)) := by
  induction ps with
  | nil => rfl
  | cons p ps ih =>
    cases hp : p.isBracket with
    | true =>
      cases p with
      | bracket b => rfl
      | _ => cases hp
    | false =>
      rw [List.map_cons, findBracket?_skip (by rw [Piece.isBracket_mark, hp]),
        findBracket?_skip hp, ih, Option.map_map, Option.map_map]
      rfl

end

theorem findBracket?_eq {ps inner outer : List Piece} {b : Bracket}
    (h : findBracket? ps = some (inner, b, outer)) : ps = inner ++ .bracket b :: outer := by
  induction ps generalizing inner with
  | nil => cases h
  | cons p ps ih =>
    cases hp : p.isBracket with
    | true =>
      cases p with
      | bracket b' =>
        cases h
        rfl
      | _ => cases hp
    | false =>
      rw [findBracket?_skip hp] at h
      obtain ⟨⟨inner', t⟩, ht, e⟩ := Option.map_eq_some_iff.1 h
      cases e
      rw [ih ht, List.cons_append]

namespace Scope

theorem closed_eq_node (b : Bracket) (inner : List Piece) (c : Closing) :
    ∃ n, closed b inner c = .node n := by
  cases c with
  | call label => exact ⟨_, rfl⟩
  | resource r =>
    unfold closed
    dsimp only
    split
    · exact ⟨_, rfl⟩
    · exact ⟨_, rfl⟩

section
variable {breaks : Nat → Bool} {behind : Text → Text}

theorem closed_mark (b : Bracket) {inner : List Piece} (c : Closing) (h : Tidy breaks inner) :
    (closed b inner c).mark breaks behind =
      closed b (inner.map (Piece.mark breaks behind)) c := by
  cases c with
  | call label => rfl
  | resource r =>
    have hcaret : Tidy breaks (.data ['^'] :: inner) := List.isChain_cons.2
      ⟨fun q _ place _ _ t ht => ⟨'^', by cases ht; rfl, by decide⟩, h⟩
    have hsettle : ∀ {ps}, Tidy breaks ps → markAll breaks (settle (pairRuns ps)) =
        settle (pairRuns (ps.map (Piece.mark breaks behind))) := by
      intro ps hps
      rw [pairRuns_mark hps, settle_mark hps.pairRuns]
    unfold closed
    by_cases hf : b.kind = .footnote
    · have himage : ¬b.kind = .image := by rw [hf]; decide
      simp only [if_pos hf, if_neg himage, Piece.mark, Inline.mark, hsettle hcaret, List.map_cons]
    · by_cases himage : b.kind = .image
      · simp only [if_neg hf, if_pos himage, Piece.mark, Inline.mark, hsettle h]
      · simp only [if_neg hf, if_neg himage, Piece.mark, Inline.mark, hsettle h]

theorem deactivate_mark (p : Piece) :
    (p.mark breaks behind).deactivate = p.deactivate.mark breaks behind := by
  cases p with
  | lineEnd place =>
    show _ = (Piece.lineEnd place).mark breaks behind
    rcases Piece.mark_lineEnd breaks behind place with h | h <;> rw [h] <;> rfl
  | bracket b =>
    show (if _ then _ else _) = Piece.mark breaks behind (if _ then _ else _)
    split <;> rfl
  | _ => rfl

end

/-! ## places -/

section
variable (e : Scope)

theorem openEscape_mark (before : List Piece) (s : Text) :
    openEscape (before.map (Piece.mark never id)) s =
      ((openEscape before s).1.map (Piece.mark never id), (openEscape before s).2) := by
  unfold openEscape
  split
  · rfl
  · split_ifs <;> rfl

theorem openSpan_mark (before : List Piece) (marker : Char) (s : Text) :
    e.openSpan (before.map (Piece.mark never id)) marker s =
      ((e.openSpan before marker s).1.map (Piece.mark never id), (e.openSpan before marker s).2) := by
  unfold openSpan
  split
  · dsimp only
    split_ifs <;> rfl
  · rfl

theorem openAngle_mark (before : List Piece) (s : Text) :
    e.openAngle (before.map (Piece.mark never id)) s =
      ((e.openAngle before s).1.map (Piece.mark never id), (e.openAngle before s).2) := by
  unfold openAngle
  split
  · rfl
  · split <;> rfl

theorem openImage_mark (before : List Piece) (s : Text) :
    e.openImage (before.map (Piece.mark never id)) s =
      ((e.openImage before s).1.map (Piece.mark never id), (e.openImage before s).2) := by
  unfold openImage
  split
  · split_ifs <;> rfl
  · rfl

theorem openBracket_mark (before : List Piece) (s : Text) :
    e.openBracket (before.map (Piece.mark never id)) s =
      ((e.openBracket before s).1.map (Piece.mark never id), (e.openBracket before s).2) := by
  unfold openBracket
  split
  · split_ifs <;> rfl
  · rfl

/-- the pieces up to a closing bracket that closes nothing -/
def plainBracket (inner : List Piece) (b : Bracket) (outer : List Piece) : List Piece :=
  .data [']'] :: inner ++ .data b.kind.text :: outer

/-- the pieces up to a closing bracket and what it closes -/
def closedBracket (inner : List Piece) (b : Bracket) (outer : List Piece) (c : Closing) :
    List Piece :=
  closed b inner.reverse c :: if b.kind = .image then outer else outer.map Piece.deactivate

theorem closeBracket_eq {before inner outer : List Piece} {b : Bracket}
    (h : findBracket? before = some (inner, b, outer)) (s : Text) :
    e.closeBracket before s =
      match if b.active then e.closing? b.kind (b.after.take (b.after.length - s.length - 1)) s
        else none with
      | none => (plainBracket inner b outer, s)
      | some (c, rest) => (closedBracket inner b outer c, rest) := by
  unfold closeBracket
  rw [h]
  dsimp only
  generalize e.closing? b.kind (b.after.take (b.after.length - s.length - 1)) s = closing
  split
  · cases closing <;> rfl
  · rfl

section
variable {breaks : Nat → Bool} {behind : Text → Text}

theorem plainBracket_mark (inner outer : List Piece) (b : Bracket) :
    (plainBracket inner b outer).map (Piece.mark breaks behind) =
      plainBracket (inner.map (Piece.mark breaks behind)) b
        (outer.map (Piece.mark breaks behind)) := by
  unfold plainBracket
  rw [List.map_append, List.map_cons, List.map_cons]
  rfl

theorem closedBracket_mark {inner : List Piece} (outer : List Piece) (b : Bracket) (c : Closing)
    (h : TidyBack breaks inner) : (closedBracket inner b outer c).map (Piece.mark breaks behind) =
      closedBracket (inner.map (Piece.mark breaks behind)) b
        (outer.map (Piece.mark breaks behind)) c := by
  have houter : (outer.map (Piece.mark breaks behind)).map Piece.deactivate =
      (outer.map Piece.deactivate).map (Piece.mark breaks behind) := by
    rw [List.map_map, List.map_map]
    exact List.map_congr_left fun p _ => deactivate_mark p
  unfold closedBracket
  rw [List.map_cons, closed_mark b c (List.isChain_reverse.2 h), List.map_reverse, houter]
  split <;> rfl

end

theorem closeBracket_mark (before : List Piece) (s : Text) :
    e.closeBracket (before.map (Piece.mark never id)) s =
      ((e.closeBracket before s).1.map (Piece.mark never id), (e.closeBracket before s).2) := by
  cases h : findBracket? before with
  | none =>
    unfold closeBracket
    rw [findBracket?_mark, h]
    rfl
  | some t =>
    obtain ⟨inner, b, outer⟩ := t
    have hmark : findBracket? (before.map (Piece.mark never id)) =
        some (inner.map (Piece.mark never id), b, outer.map (Piece.mark never id)) := by
      rw [findBracket?_mark, h]
      rfl
    rw [closeBracket_eq e h, closeBracket_eq e hmark]
    generalize (if b.active then
      e.closing? b.kind (b.after.take (b.after.length - s.length - 1)) s else none) = closing
    cases closing with
    | none => exact congrArg (·, s) (plainBracket_mark inner outer b).symm
    | some t =>
      exact congrArg (·, t.2) (closedBracket_mark outer b t.1 (tidyBack_never inner)).symm

variable {e} in
theorem bareLink?_off (he : e.settings.autolinkLiteral = false) (last : Option Char) (c : Char)
    (s : Text) : e.bareLink? last c s = none := by
  unfold bareLink?
  rw [he]
  rfl

variable {e}

/-- a step of the reading, from pieces without places -/
theorem step_mark (he : e.settings.autolinkLiteral = false) (ends : List Nat) (last : Option Char) (before : List Piece) (c : Char)
    (r : Text) : e.step [] last (before.map (Piece.mark never id)) c r =
      ((e.step ends last before c r).1.map (Piece.mark never id), (e.step ends last before c r).2) := by
  unfold step
  split_ifs
  · exact openEscape_mark before r
  · rfl
  · split <;> rfl
  · exact openSpan_mark e before c _
  · exact openAngle_mark e before r
  · exact openImage_mark e before r
  · exact openBracket_mark e before r
  · exact closeBracket_mark e before r
  · rfl
  · rw [bareLink?_off he]
    rfl

/-- the places of the line endings do not steer the reading of a text -/
theorem scan_mark (he : e.settings.autolinkLiteral = false) (ends : List Nat) (fuel : Nat) (last : Option Char) (before : List Piece)
    (s : Text) : e.scan [] fuel last (before.map (Piece.mark never id)) s =
      (e.scan ends fuel last before s).map (Piece.mark never id) := by
  induction fuel generalizing last before s with
  | zero => rfl
  | succ fuel ih =>
    cases s with
    | nil => rfl
    | cons c r =>
      rw [scan, scan, step_mark he ends]
      exact ih ..

/-- content that is read twice, with places and without -/
theorem readPieces_mark (he : e.settings.autolinkLiteral = false) (inItem : Bool) (c : Content) :
    e.readPieces inItem { text := c.text } = markAll never (e.readPieces inItem c) := by
  have hread : ∀ fuel last before s, settleAll (pairRuns
        (e.scan [] fuel last (before.map (Piece.mark never id)) s).reverse) =
      markAll never (settleAll (pairRuns
        (e.scan c.lineEnds.reverse fuel last before s).reverse)) := by
    intro fuel last before s
    rw [scan_mark he c.lineEnds.reverse, ← List.map_reverse,
      pairRuns_mark (tidy_never _), settleAll_mark (tidy_never _)]
  unfold readPieces
  dsimp only
  split
  · exact hread _ _ [.node (.checkBox _)] _
  · exact hread _ _ [] _

/-! ## the text left -/

theorem reference?_suffix {own : Option Resource} {s rest : Text} {r : Resource}
    (h : e.reference? own s = some (r, rest)) : rest <:+ s := by
  unfold reference? at h
  dsimp only at h
  split at h
  · next t hfull =>
    cases h
    obtain ⟨⟨label, u⟩, hread, hr⟩ := Option.bind_eq_some_iff.1 hfull
    obtain ⟨r', -, e'⟩ := Option.map_eq_some_iff.1 hr
    cases e'
    obtain ⟨w, rfl, -⟩ := Label.whole_read? hread
    exact List.suffix_append w u
  · cases h
    exact List.suffix_cons ']' rest
  · cases h

theorem closing?_suffix {kind : BracketKind} {label s rest : Text} {c : Closing}
    (h : e.closing? kind label s = some (c, rest)) : rest <:+ s := by
  have hown : ∀ {o : Option Resource} {s : Text} {t : Resource × Text},
      o.map (fun o => (o, s)) = some t → t.2 <:+ s := by
    intro o s t h
    obtain ⟨o', -, rfl⟩ := Option.map_eq_some_iff.1 h
    exact List.suffix_rfl
  unfold closing? at h
  dsimp only at h
  split at h
  · cases h
    exact List.suffix_rfl
  · obtain ⟨t, ht, e'⟩ := Option.map_eq_some_iff.1 h
    cases e'
    split at ht
    · next u =>
      cases hread : readResource? u with
      | none =>
        rw [hread] at ht
        exact hown ht
      | some t' =>
        rw [hread] at ht
        cases ht
        obtain ⟨w, rfl, -⟩ := whole_readResource? hread
        exact (List.suffix_append w _).trans (List.suffix_cons '(' _)
    · exact (reference?_suffix ht).trans (List.suffix_cons '[' _)
    · exact hown ht

/-! ## steps -/

/-- what the pieces and the text after a step are, at a character that is no line ending -/
inductive Step (before : List Piece) (c : Char) (r : Text) : List Piece × Text → Prop
  /-- one more piece; if it stands for itself, it is what was read -/
  | piece {x : Piece} {rest : Text} (hrest : rest <:+ r) (hplaces : x.places = [])
      (htext : ∀ s, x.text? = some s → c :: r = s ++ rest)
      (hafter : ∀ b, x = .bracket b → b.after = rest) : Step before c r (x :: before, rest)
  | plain {inner outer : List Piece} {b : Bracket} (hc : c = ']')
      (h : before = inner ++ .bracket b :: outer) : Step before c r (plainBracket inner b outer, r)
  | closed {inner outer : List Piece} {b : Bracket} {d : Closing} {rest : Text}
      (hrest : rest <:+ r) (h : before = inner ++ .bracket b :: outer) :
      Step before c r (closedBracket inner b outer d, rest)

namespace Step
variable {before : List Piece} {c : Char} {r rest : Text}

theorem suffix {t : List Piece × Text} (h : Step before c r t) : t.2 <:+ r := by
  cases h with
  | piece hrest => exact hrest
  | plain => exact List.suffix_rfl
  | closed hrest => exact hrest

theorem node {n : Inline} (hrest : rest <:+ r) (hn : n.places = []) :
    Step before c r (.node n :: before, rest) :=
  .piece hrest hn nofun nofun

theorem data (s : Text) (h : c :: r = s ++ rest) (hs : s ≠ []) :
    Step before c r (.data s :: before, rest) := by
  refine .piece ?_ rfl (fun t ht => ?_) nofun
  · obtain ⟨d, s, rfl⟩ := List.exists_cons_of_ne_nil hs
    exact ⟨s, (List.cons.inj h).2.symm⟩
  · cases ht
    exact h

theorem char : Step before c r (.data [c] :: before, r) := .data [c] rfl (List.cons_ne_nil c [])

theorem bracket (k : BracketKind) (h : c :: r = k.text ++ rest) :
    Step before c r (.bracket { kind := k, after := rest } :: before, rest) := by
  refine .piece ?_ rfl (fun t ht => ?_) fun b hb => ?_
  · cases k with
    | link => exact ⟨[], (List.cons.inj h).2.symm⟩
    | image => exact ⟨['['], (List.cons.inj h).2.symm⟩
    | footnote => exact ⟨['^'], (List.cons.inj h).2.symm⟩
  · cases ht
    exact h
  · cases hb
    rfl

end Step

theorem step_openEscape (before : List Piece) (r : Text) :
    Step before '\\' r (openEscape before r) := by
  unfold openEscape
  split
  · exact .char
  · next d u =>
    split_ifs
    · exact .piece (List.suffix_cons d u) rfl (fun _ h => by cases h) fun _ h => by cases h
    · exact .node (List.suffix_cons d u) rfl
    · exact .char

theorem step_openSpan (before : List Piece) (c : Char) (r : Text) :
    Step before c r (e.openSpan before c (c :: r)) := by
  unfold openSpan
  split
  · next content rest h =>
    obtain ⟨w, hw, hcut, -⟩ := readSpan?_eq_some h
    obtain ⟨d, w, rfl⟩ := List.exists_cons_of_ne_nil hw
    refine .node ⟨w, (List.cons.inj hcut).2.symm⟩ ?_
    split <;> rfl
  · obtain ⟨u, hu, -, hdrop⟩ := exists_run c (c :: r)
    have hrun : runLength c (c :: r) ≠ 0 := by simp [runLength]
    dsimp only
    rw [hdrop]
    exact .data _ hu (by simpa using hrun)

theorem step_openAngle (before : List Piece) (r : Text) :
    Step before '<' r (e.openAngle before r) := by
  unfold openAngle
  split
  · next h =>
    obtain ⟨w, rfl, -⟩ := readAutolink?_eq_some h
    exact .node ((List.suffix_cons '>' _).trans (List.suffix_append w _)) rfl
  · split
    · next rest h =>
      split at h
      · obtain ⟨w, rfl, -⟩ := RawTag.tagged_end? h
        exact .node ((List.suffix_cons '>' _).trans (List.suffix_append w _)) rfl
      · cases h
    · exact .char

theorem step_openImage (before : List Piece) (r : Text) :
    Step before '!' r (e.openImage before r) := by
  unfold openImage
  split
  · split_ifs
    · exact .char
    · exact .bracket .image rfl
  · exact .char

theorem step_openBracket (before : List Piece) (r : Text) :
    Step before '[' r (e.openBracket before r) := by
  unfold openBracket
  split
  · split_ifs
    · exact .bracket .footnote rfl
    · exact .bracket .link rfl
  · exact .bracket .link rfl

theorem step_closeBracket (before : List Piece) (r : Text) :
    Step before ']' r (e.closeBracket before r) := by
  cases hfound : findBracket? before with
  | none =>
    unfold closeBracket
    rw [hfound]
    exact .char
  | some t =>
    rw [closeBracket_eq e hfound]
    split
    · exact .plain rfl (findBracket?_eq hfound)
    · next h =>
      split at h
      · exact .closed (closing?_suffix h) (findBracket?_eq hfound)
      · cases h

theorem step_openRun (last : Option Char) (before : List Piece) (c : Char) (r : Text) :
    Step before c r (e.openRun last before c (c :: r)) := by
  obtain ⟨u, hu, -, hdrop⟩ := exists_run c (c :: r)
  obtain ⟨k, hk⟩ : ∃ k, runLength c (c :: r) = k + 1 :=
    ⟨(r.takeWhile (· = c)).length, by simp [runLength]⟩
  unfold openRun
  dsimp only
  rw [hdrop]
  rw [hk, List.replicate_succ, List.cons_append] at hu
  refine .piece ⟨_, (List.cons.inj hu).2.symm⟩ rfl (fun s hs => ?_) fun _ h => by cases h
  have hmarker : ∀ {strikes k last after}, (Run.ofSides strikes c k last after).text =
      List.replicate k c := by
    intro strikes k last after
    unfold Run.ofSides
    dsimp only
    split <;> rfl
  cases hs
  rw [hmarker, hk, List.replicate_succ, List.cons_append]
  exact hu

theorem step_cases (he : e.settings.autolinkLiteral = false) (ends : List Nat)
    (last : Option Char) (before : List Piece) {c : Char} (hc : c ≠ '\n') (r : Text) :
    Step before c r (e.step ends last before c r) := by
  unfold step
  split_ifs with hescape href hspan hangle himage hopen hclose
  · subst hescape
    exact step_openEscape before r
  · split
    · next s rest h =>
      obtain ⟨w, rfl, -⟩ := whole_readReference? h
      exact .node (List.suffix_append w rest) rfl
    · exact .char
  · exact step_openSpan before c r
  · subst hangle
    exact step_openAngle before r
  · subst himage
    exact step_openImage before r
  · subst hopen
    exact step_openBracket before r
  · subst hclose
    exact step_closeBracket before r
  · exact step_openRun last before c r
  · rw [bareLink?_off he]
    exact .char

theorem step_lineEnd (ends : List Nat) (last : Option Char) (before : List Piece) (r : Text) :
    e.step ends last before '\n' r = (.lineEnd (placeBefore ends r) :: before, r) := rfl

theorem step_suffix (he : e.settings.autolinkLiteral = false) (ends : List Nat)
    (last : Option Char) (before : List Piece) (c : Char) (r : Text) :
    (e.step ends last before c r).2 <:+ r := by
  by_cases hc : c = '\n'
  · subst hc
    exact List.suffix_rfl
  · exact (step_cases he ends last before hc r).suffix

/-! ## places of line endings -/

/-- the places of the line endings of a text in their order; `ends` holds the places of all line
endings from the last one to the first -/
def endsOf (ends : List Nat) : Text → List Nat
  | [] => []
  | c :: r => if c = '\n' then placeBefore ends r :: endsOf ends r else endsOf ends r

theorem endsOf_append (ends : List Nat) (w r : Text) :
    endsOf ends (w ++ r) = endsOf (ends.drop (r.count '\n')) w ++ endsOf ends r := by
  induction w with
  | nil => rfl
  | cons c w ih =>
    have hplace : placeBefore ends (w ++ r) = placeBefore (ends.drop (r.count '\n')) w := by
      rw [placeBefore, placeBefore, List.getElem?_drop, List.count_append, Nat.add_comm]
    rw [List.cons_append, endsOf, endsOf, ih, hplace]
    split <;> rfl

theorem endsOf_suffix (ends : List Nat) {s t : Text} (h : t <:+ s) :
    (endsOf ends t).Sublist (endsOf ends s) := by
  obtain ⟨w, rfl⟩ := h
  rw [endsOf_append]
  exact List.sublist_append_right _ _

theorem endsOf_eq_nil (ends : List Nat) {s : Text} (h : '\n' ∉ s) : endsOf ends s = [] := by
  induction s with
  | nil => rfl
  | cons c r ih =>
    rw [List.mem_cons, not_or] at h
    rw [endsOf, if_neg (Ne.symm h.1), ih h.2]

theorem places_closed (b : Bracket) (inner : List Piece) (c : Closing) :
    (closed b inner c).places.Sublist (placesOf inner) := by
  have hsettle : ∀ ps : List Piece, (placesIn (settle (pairRuns ps))).Sublist (placesOf ps) :=
    fun ps => (placesIn_settle _).trans (placesOf_pairRuns ps)
  cases c with
  | call label => exact List.nil_sublist _
  | resource r =>
    unfold closed
    dsimp only
    split_ifs
    · exact List.nil_sublist _
    · exact List.nil_sublist _
    · exact hsettle (.data ['^'] :: inner)
    · exact hsettle inner

theorem places_deactivate (p : Piece) : p.deactivate.places = p.places := by
  cases p with
  | bracket b =>
    show Piece.places (if _ then _ else _) = _
    split <;> rfl
  | _ => rfl

theorem placesOf_plainBracket (inner outer : List Piece) (b : Bracket) :
    placesOf (plainBracket inner b outer).reverse =
      placesOf (inner ++ .bracket b :: outer).reverse := by
  have hplain : plainBracket inner b outer =
      .data [']'] :: (inner ++ .data b.kind.text :: outer) := rfl
  simp only [hplain, List.reverse_cons, List.reverse_append, placesOf_append, placesOf_cons,
    placesOf_nil, Piece.places, List.append_nil]

theorem placesOf_closedBracket (inner outer : List Piece) (b : Bracket) (c : Closing) :
    (placesOf (closedBracket inner b outer c).reverse).Sublist
      (placesOf (inner ++ .bracket b :: outer).reverse) := by
  have houter : placesOf (if b.kind = .image then outer else outer.map Piece.deactivate).reverse =
      placesOf outer.reverse := by
    split
    · rfl
    · rw [← List.map_reverse, placesOf, placesOf, List.flatMap_map]
      exact List.flatMap_congr fun p _ => places_deactivate p
  unfold closedBracket
  simp only [List.reverse_cons, List.reverse_append, placesOf_append, placesOf_cons, placesOf_nil,
    List.append_nil, houter, Piece.places]
  exact (places_closed b inner.reverse c).append_left _

/-- a step at a character that is no line ending finds none -/
theorem Step.placesOf {before : List Piece} {c : Char} {r : Text} {t : List Piece × Text}
    (h : Step before c r t) : (placesOf t.1.reverse).Sublist (placesOf before.reverse) := by
  cases h with
  | piece _ hplaces =>
    rw [List.reverse_cons, placesOf_append, placesOf_cons, hplaces]
    exact (List.append_nil (Markdown.placesOf before.reverse)).symm ▸ .refl _
  | plain _ h => exact h ▸ placesOf_plainBracket _ _ _ ▸ .refl _
  | closed _ h => exact h ▸ placesOf_closedBracket _ _ _ _

/-- line endings are read in their order -/
theorem placesOf_scan (he : e.settings.autolinkLiteral = false) (ends : List Nat) (fuel : Nat)
    (last : Option Char) (before : List Piece) (s : Text) :
    (placesOf (e.scan ends fuel last before s).reverse).Sublist
      (placesOf before.reverse ++ endsOf ends s) := by
  induction fuel generalizing last before s with
  | zero => exact List.sublist_append_left _ _
  | succ fuel ih =>
    cases s with
    | nil => exact List.sublist_append_left _ _
    | cons c r =>
      rw [scan]
      by_cases hc : c = '\n'
      · subst hc
        rw [step_lineEnd, endsOf, if_pos rfl]
        refine (ih ..).trans ?_
        rw [List.reverse_cons, placesOf_append, List.append_assoc]
        exact .refl _
      · have hsuffix := step_suffix he ends last before c r
        exact (ih ..).trans ((step_cases he ends last before hc r).placesOf.append
          (endsOf_suffix ends (hsuffix.trans (List.suffix_cons c r))))

theorem readCheckBox?_eq_some {s rest : Text} {checked : Bool}
    (h : readCheckBox? s = some (checked, rest)) : ∃ c, s = '[' :: c :: ']' :: rest := by
  unfold readCheckBox? at h
  split at h
  · next c r =>
    dsimp only at h
    split_ifs at h
    · cases h
      exact ⟨c, rfl⟩
    · cases h
      exact ⟨c, rfl⟩
  · cases h

theorem placesIn_settled (ps : List Piece) :
    (placesIn (settleAll (pairRuns ps))).Sublist (Markdown.placesOf ps) :=
  (placesIn_settleAll _).trans (placesOf_pairRuns ps)

/-- the line endings of a content are read in their order -/
theorem placesIn_readPieces (he : e.settings.autolinkLiteral = false) (inItem : Bool)
    (c : Content) :
    (placesIn (e.readPieces inItem c)).Sublist (endsOf c.lineEnds.reverse c.text) := by
  unfold readPieces
  dsimp only
  split
  · next checked rest hbox =>
    split at hbox
    · obtain ⟨d, hd⟩ := readCheckBox?_eq_some hbox
      refine (placesIn_settled _).trans ((placesOf_scan he _ _ _ _ _).trans (endsOf_suffix _ ?_))
      exact ⟨['[', d, ']'], hd.symm⟩
    · cases hbox
  · exact (placesIn_settled _).trans (placesOf_scan he _ _ _ _ _)

end

end Scope

end MarkdownModule.Markdown

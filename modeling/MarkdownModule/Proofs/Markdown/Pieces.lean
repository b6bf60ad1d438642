import MarkdownModule.Proofs.Markdown.LineBreak
import MarkdownModule.Proofs.Text.Ends
import Mathlib.Data.List.Chain

/-!
# Line endings among pieces

Pieces are paired and settled in the same way whether their line endings are line breaks or not, as
long as no blank stands before a line ending that becomes one.

* `Markdown.Tidy`           no blank stands before a line ending with a break
* `Markdown.settle_mark`    the content of marked pieces is marked
* `Markdown.pairRuns_mark`  their runs are paired alike
-/

namespace MarkdownModule.Markdown

/-! ## marked pieces -/

/-- a piece without places, in which the line endings with `breaks` are line breaks; what stands
behind an opening bracket is read through `behind` -/
def Piece.mark (breaks : Nat → Bool) (behind : Text → Text) : Piece → Piece
  | .data s => .data s
  | .node n => .node (n.mark breaks)
  | .lineEnd place => if breaks place then .brokenLine else .lineEnd 0
  | .brokenLine => .brokenLine
  | .run r => .run r
  | .bracket b => .bracket { b with after := behind b.after }

section
variable (breaks : Nat → Bool) (behind : Text → Text)

theorem Piece.mark_lineEnd (place : Nat) :
    (Piece.lineEnd place).mark breaks behind = .brokenLine ∨
      (Piece.lineEnd place).mark breaks behind = .lineEnd 0 := by
  rw [mark]
  split
  · exact .inl rfl
  · exact .inr rfl

@[simp] theorem Piece.text?_mark (p : Piece) : (p.mark breaks behind).text? = p.text? := by
  cases p with
  | lineEnd place => rcases mark_lineEnd breaks behind place with h | h <;> rw [h] <;> rfl
  | _ => rfl

/-- the second piece may stand behind the first one: no blank comes before a line ending that
becomes a break -/
def Piece.Meets (p q : Piece) : Prop :=
  ∀ place, q = .lineEnd place → breaks place = true →
    ∀ t, p.text? = some t → ∃ c, t.getLast? = some c ∧ isGap c = false

/-- no blank stands before a line ending that becomes a break -/
abbrev Tidy (ps : List Piece) : Prop := ps.IsChain (Piece.Meets breaks)

/-- the same of pieces that are given from the last to the first -/
abbrev TidyBack (before : List Piece) : Prop := before.IsChain fun q p => p.Meets breaks q

end

section
variable {breaks : Nat → Bool} {behind : Text → Text}

theorem Piece.meets_of_ne {p q : Piece} (h : ∀ place, q ≠ .lineEnd place) : p.Meets breaks q :=
  fun place hq => absurd hq (h place)

theorem tidy_never (ps : List Piece) : Tidy never ps :=
  List.isChain_iff_getElem.2 fun _ _ _ _ h => nomatch h

theorem tidyBack_never (before : List Piece) : TidyBack never before :=
  List.isChain_iff_getElem.2 fun _ _ _ _ h => nomatch h

/-! ## merging -/

theorem merge_mark (ps : List Piece) :
    merge (ps.map (Piece.mark breaks behind)) = (merge ps).map (Piece.mark breaks behind) := by
  induction ps with
  | nil => rfl
  | cons p ps ih =>
    rw [List.map_cons, merge, merge, Piece.text?_mark, ih]
    cases p.text? with
    | none => rfl
    | some s =>
      cases merge ps with
      | nil => rfl
      | cons q qs =>
        cases q with
        | lineEnd place =>
          rw [List.map_cons]
          rcases Piece.mark_lineEnd breaks behind place with h | h <;> rw [h] <;>
            simp only [List.map_cons, h] <;> rfl
        | _ => rfl

/-- what stands first among merged pieces is data or stood first before -/
theorem head?_merge (ps : List Piece) :
    (∃ t rest, merge ps = .data t :: rest) ∨ (merge ps).head? = ps.head? := by
  cases ps with
  | nil => exact .inr rfl
  | cons p ps =>
    rw [merge]
    cases p.text? with
    | none => exact .inr rfl
    | some s =>
      refine .inl ?_
      dsimp only
      split
      · exact ⟨_, _, rfl⟩
      · exact ⟨_, _, rfl⟩

theorem Piece.Meets.append {s t : Text} {q : Piece} (h : (Piece.data t).Meets breaks q) :
    (Piece.data (s ++ t)).Meets breaks q := by
  intro place hq hbreak u hu
  obtain ⟨c, hc, hgap⟩ := h place hq hbreak t rfl
  cases hu
  exact ⟨c, by rw [List.getLast?_append, hc]; rfl, hgap⟩

theorem Tidy.merge {ps : List Piece} (h : Tidy breaks ps) : Tidy breaks (merge ps) := by
  induction ps with
  | nil => exact .nil
  | cons p ps ih =>
    obtain ⟨hp, hps⟩ := List.isChain_cons.1 h
    have hm := ih hps
    have hmeets : ∀ q ∈ (Markdown.merge ps).head?, (∃ t, q = .data t) ∨ p.Meets breaks q := by
      intro q hq
      rcases head?_merge ps with ⟨t, rest, e⟩ | e
      · rw [e] at hq
        exact .inl ⟨t, (Option.some.inj hq).symm⟩
      · rw [e] at hq
        exact .inr (hp q hq)
    rw [Markdown.merge]
    split
    · refine List.isChain_cons.2 ⟨fun q hq => ?_, hm⟩
      rcases hmeets q hq with ⟨t, rfl⟩ | hq
      · exact Piece.meets_of_ne fun _ => by simp
      · exact hq
    · next s hs =>
      have hdata : ∀ q, p.Meets breaks q → (Piece.data s).Meets breaks q := by
        intro q hq place he hbreak t ht
        exact hq place he hbreak t (hs.trans ht)
      split
      · next t rest e =>
        rw [e] at hm
        obtain ⟨ht, hrest⟩ := List.isChain_cons.1 hm
        exact List.isChain_cons.2 ⟨fun q hq => (ht q hq).append, hrest⟩
      · next hno =>
        refine List.isChain_cons.2 ⟨fun q hq => ?_, hm⟩
        rcases hmeets q hq with ⟨t, rfl⟩ | hq
        · exact Piece.meets_of_ne fun _ => by simp
        · exact hdata q hq

/-! ## settling -/

theorem markAll_textOf (breaks : Nat → Bool) (s : Text) : markAll breaks (textOf s) = textOf s := by
  unfold textOf
  split <;> rfl

/-- a line ending behind other characters than blanks is no line break by itself -/
theorem Piece.Meets.soft {s : Text} {place : Nat} (h : (Piece.data s).Meets breaks (.lineEnd place))
    (hbreak : breaks place = true) : Text.dropEndWhile isGap s = s ∧
      breaksLine (s.drop s.length) = false := by
  obtain ⟨c, hc, hgap⟩ := h place rfl hbreak s rfl
  refine ⟨Text.dropEndWhile_eq_self fun d hd => ?_, ?_⟩
  · exact Option.some.inj (hc.symm.trans hd) ▸ hgap
  · rw [List.drop_length]
    rfl

theorem settleMerged_mark (fresh : Bool) {ps : List Piece} (h : Tidy breaks ps) :
    settleMerged fresh (ps.map (Piece.mark breaks behind)) =
      markAll breaks (settleMerged fresh ps) := by
  induction fresh, ps using settleMerged.induct with
  | case1 => rfl
  | case2 fresh s place ps ih =>
    have ih := ih h.tail.tail
    cases hbreak : breaks place with
    | false =>
      simp only [List.map_cons, Piece.mark, hbreak, settleMerged, markAll_append, markAll_textOf,
        ih, Bool.false_eq_true, if_false, markAll]
      congr 2
      split
      · rfl
      · simp only [Inline.mark, hbreak, Bool.false_eq_true, if_false]
    | true =>
      obtain ⟨hkept, hsoft⟩ := (List.isChain_cons_cons.1 h).1.soft hbreak
      simp only [List.map_cons, Piece.mark, hbreak, if_true, settleMerged, hkept, hsoft,
        markAll_append, markAll_textOf, ih, Bool.false_eq_true, if_false, markAll, Inline.mark]
  | case3 fresh s ps hno ih =>
    have hno' : ∀ place qs, ps.map (Piece.mark breaks behind) = .lineEnd place :: qs → False := by
      intro place qs e
      match ps with
      | [] => cases e
      | .lineEnd p :: ps => exact hno p ps rfl
      | .data _ :: _ | .node _ :: _ | .brokenLine :: _ | .run _ :: _ | .bracket _ :: _ => cases e
    rw [List.map_cons, Piece.mark, settleMerged, settleMerged, ih h.tail, markAll_append,
      markAll_textOf]
    · exact hno
    · exact hno'
  | case4 fresh place ps ih =>
    have ih := ih h.tail
    cases hbreak : breaks place with
    | false => simp only [List.map_cons, Piece.mark, hbreak, settleMerged, ih, Bool.false_eq_true,
        if_false, markAll, Inline.mark]
    | true =>
      simp only [List.map_cons, Piece.mark, hbreak, settleMerged, ih, if_true, markAll, Inline.mark]
  | case5 fresh ps ih | case6 fresh n ps ih | case7 fresh r ps ih | case8 fresh b ps ih =>
    simp only [List.map_cons, Piece.mark, settleMerged, ih h.tail, markAll, Inline.mark]

theorem settle_mark {ps : List Piece} (h : Tidy breaks ps) :
    settle (ps.map (Piece.mark breaks behind)) = markAll breaks (settle ps) := by
  unfold settle
  rw [merge_mark, settleMerged_mark _ h.merge]

theorem dropEndBlanks_mark (ps : List Piece) :
    dropEndBlanks (ps.map (Piece.mark breaks behind)) =
      (dropEndBlanks ps).map (Piece.mark breaks behind) := by
  induction ps using dropEndBlanks.induct with
  | case1 => rfl
  | case2 s => rfl
  | case3 p ps hno ih =>
    have hno' : ∀ s, p.mark breaks behind = .data s → ps.map (Piece.mark breaks behind) = [] →
        False := by
      intro s hs hps
      refine hno s ?_ (List.map_eq_nil_iff.1 hps)
      cases p with
      | data t => exact hs
      | lineEnd place =>
        rcases Piece.mark_lineEnd breaks behind place with e | e <;> rw [e] at hs <;> cases hs
      | _ => cases hs
    rw [List.map_cons, dropEndBlanks, dropEndBlanks, ih, List.map_cons]
    · exact hno
    · exact hno'

theorem Tidy.dropEndBlanks {ps : List Piece} (h : Tidy breaks ps) :
    Tidy breaks (dropEndBlanks ps) := by
  induction ps using Markdown.dropEndBlanks.induct with
  | case1 => exact h
  | case2 s => exact .singleton _
  | case3 p ps hno ih =>
    obtain ⟨hp, hps⟩ := List.isChain_cons.1 h
    rw [Markdown.dropEndBlanks]
    · refine List.isChain_cons.2 ⟨fun q hq => ?_, ih hps⟩
      match ps with
      | [] => cases hq
      | [.data s] =>
        cases hq
        exact Piece.meets_of_ne fun _ => by simp
      | r :: r' :: rs =>
        rw [Markdown.dropEndBlanks] at hq
        · exact hp q hq
        · exact fun _ _ => nofun
      | [.node _] | [.lineEnd _] | [.brokenLine] | [.run _] | [.bracket _] => exact hp q hq
    · exact hno

theorem settleAll_mark {ps : List Piece} (h : Tidy breaks ps) :
    settleAll (ps.map (Piece.mark breaks behind)) = markAll breaks (settleAll ps) := by
  unfold settleAll
  rw [merge_mark, dropEndBlanks_mark, settleMerged_mark _ h.merge.dropEndBlanks]

/-! ## pairing -/

theorem findOpener?_skip {r : Run} {p : Piece} (hp : ∀ o, p ≠ .run o) (ps : List Piece) :
    findOpener? r (p :: ps) = (findOpener? r ps).map fun t => (p :: t.1, t.2) := by
  rw [findOpener?]
  exact hp

theorem Piece.mark_ne_run {p : Piece} (hp : ∀ o, p ≠ .run o) : ∀ o, p.mark breaks behind ≠ .run o := by
  intro o ho
  cases p with
  | run o => exact hp o rfl
  | lineEnd place =>
    rcases mark_lineEnd breaks behind place with e | e <;> rw [e] at ho <;> cases ho
  | _ => cases ho

theorem findOpener?_mark (r : Run) (ps : List Piece) :
    findOpener? r (ps.map (Piece.mark breaks behind)) = (findOpener? r ps).map fun t =>
      (t.1.map (Piece.mark breaks behind), t.2.1, t.2.2.map (Piece.mark breaks behind)) := by
  induction ps with
  | nil => rfl
  | cons p ps ih =>
    by_cases hp : ∃ o, p = .run o
    · obtain ⟨o, rfl⟩ := hp
      rw [List.map_cons, Piece.mark, findOpener?, findOpener?, ih]
      split
      · rfl
      · rw [Option.map_map, Option.map_map]
        rfl
    · have hp : ∀ o, p ≠ .run o := fun o ho => hp ⟨o, ho⟩
      rw [List.map_cons, findOpener?_skip (Piece.mark_ne_run hp), findOpener?_skip hp, ih,
        Option.map_map, Option.map_map]
      rfl

theorem findOpener?_eq {r : Run} {ps inner rest : List Piece} {o : Run}
    (h : findOpener? r ps = some (inner, o, rest)) : ps = inner ++ .run o :: rest := by
  induction ps generalizing inner with
  | nil => cases h
  | cons p ps ih =>
    have hskip : (findOpener? r ps).map (fun t => (p :: t.1, t.2)) = some (inner, o, rest) →
        p :: ps = inner ++ .run o :: rest := by
      intro h
      obtain ⟨⟨inner', t⟩, ht, e⟩ := Option.map_eq_some_iff.1 h
      cases e
      rw [ih ht, List.cons_append]
    by_cases hp : ∃ o', p = .run o'
    · obtain ⟨o', rfl⟩ := hp
      rw [findOpener?] at h
      split at h
      · cases h
        rfl
      · exact hskip h
    · exact hskip ((findOpener?_skip (fun o' ho => hp ⟨o', ho⟩) ps).symm.trans h)

theorem mark_emphasize (breaks : Nat → Bool) (marker : Char) (taken : Nat) (inner : List Inline) :
    (emphasize marker taken inner).mark breaks =
      emphasize marker taken (markAll breaks inner) := by
  unfold emphasize
  split
  · rfl
  · split <;> rfl

theorem Run.map_less (r : Run) (taken : Nat) :
    (r.less taken).map (Piece.mark breaks behind) = r.less taken := by
  unfold less
  split <;> rfl

theorem Piece.Meets.less {r : Run} {q : Piece} (h : (Piece.run r).Meets breaks q) {size : Nat}
    (hsize : 0 < size) : (Piece.run { r with size }).Meets breaks q := by
  intro place hq hbreak t ht
  obtain ⟨c, hc, hgap⟩ := h place hq hbreak _ rfl
  cases ht
  have hmarker : c = r.marker := List.eq_of_mem_replicate (List.mem_of_getLast? hc)
  refine ⟨c, ?_, hgap⟩
  show (List.replicate size r.marker).getLast? = _
  rw [List.getLast?_replicate, if_neg (by omega), hmarker]

theorem Piece.meets_run (p : Piece) (r : Run) : p.Meets breaks (.run r) :=
  meets_of_ne fun _ => nofun

theorem Piece.meets_node (p : Piece) (n : Inline) : p.Meets breaks (.node n) :=
  meets_of_ne fun _ => nofun

theorem Piece.node_meets (n : Inline) (q : Piece) : (Piece.node n).Meets breaks q :=
  fun _ _ _ _ ht => nomatch ht

/-- the pieces after emphasis was made -/
theorem TidyBack.emphasis {r : Run} {before inner rest : List Piece} {o : Run}
    (h : TidyBack breaks before) (hfound : findOpener? r before = some (inner, o, rest))
    (n : Inline) (taken : Nat) :
    Tidy breaks inner.reverse ∧ TidyBack breaks (.node n :: o.less taken ++ rest) := by
  rw [findOpener?_eq hfound] at h
  obtain ⟨hinner, hrest, -⟩ := List.isChain_append.1 h
  refine ⟨List.isChain_reverse.2 hinner, ?_⟩
  have hrest := hrest.tail
  unfold Run.less
  split
  · exact List.isChain_cons.2 ⟨fun p _ => p.meets_node n, hrest⟩
  · exact List.isChain_cons.2 ⟨fun p _ => p.meets_node n,
      List.isChain_cons.2 ⟨fun p _ => p.meets_run _, hrest⟩⟩

theorem TidyBack.closeRun {n : Nat} {r : Run} {before : List Piece} (h : TidyBack breaks before) :
    TidyBack breaks (closeRun n r before) ∧ ∀ q, (Piece.run r).Meets breaks q →
      ∀ p ∈ (Markdown.closeRun n r before).head?, p.Meets breaks q := by
  have hplain : ∀ {r before}, TidyBack breaks before → TidyBack breaks (.run r :: before) ∧
      ∀ q, (Piece.run r).Meets breaks q →
        ∀ p ∈ (Piece.run r :: before).head?, p.Meets breaks q := by
    intro r before h
    refine ⟨List.isChain_cons.2 ⟨fun p _ => p.meets_run r, h⟩, fun q hq p hp => ?_⟩
    cases hp
    exact hq
  induction n generalizing r before with
  | zero => exact hplain h
  | succ n ih =>
    rw [Markdown.closeRun]
    split
    · split
      · exact hplain h
      · next inner o rest hfound =>
        dsimp only
        generalize (if (decide (1 < o.size) && decide (1 < r.size)) = true then 2 else 1) = taken
        split
        · refine ⟨(h.emphasis hfound _ _).2, fun q _ p hp => ?_⟩
          cases hp
          exact Piece.node_meets _ q
        · next hsize =>
          obtain ⟨htidy, hhead⟩ := ih (h.emphasis hfound _ _).2
          exact ⟨htidy, fun q hq => hhead q (hq.less (by omega))⟩
    · exact hplain h

theorem closeRun_mark (n : Nat) (r : Run) {before : List Piece} (h : TidyBack breaks before) :
    closeRun n r (before.map (Piece.mark breaks behind)) =
      (closeRun n r before).map (Piece.mark breaks behind) := by
  induction n generalizing r before with
  | zero => rfl
  | succ n ih =>
    rw [closeRun, closeRun]
    split
    · rw [findOpener?_mark]
      cases hfound : findOpener? r before with
      | none => rfl
      | some t =>
        obtain ⟨inner, o, rest⟩ := t
        have hsettle : settle (inner.reverse.map (Piece.mark breaks behind)) =
            markAll breaks (settle inner.reverse) :=
          settle_mark (h.emphasis hfound (.text []) 0).1
        simp only [Option.map_some]
        have hbefore : ∀ marker taken,
            Piece.node (emphasize marker taken
                (settle (inner.map (Piece.mark breaks behind)).reverse)) :: o.less taken ++
                rest.map (Piece.mark breaks behind) =
              (Piece.node (emphasize marker taken (settle inner.reverse)) :: o.less taken ++
                rest).map (Piece.mark breaks behind) := by
          intro marker taken
          rw [← List.map_reverse, hsettle, List.map_append, List.map_cons, Run.map_less, Piece.mark,
            mark_emphasize]
        rw [hbefore]
        generalize (if (decide (1 < o.size) && decide (1 < r.size)) = true then 2 else 1) = taken
        split
        · rfl
        · exact ih _ (h.emphasis hfound _ _).2
    · rfl

theorem Tidy.addPiece {before ps : List Piece} {p : Piece}
    (h : Tidy breaks (before.reverse ++ p :: ps)) :
    Tidy breaks ((addPiece before p).reverse ++ ps) := by
  obtain ⟨hbefore, hps, hmeets⟩ := List.isChain_append.1 h
  obtain ⟨hp, hps⟩ := List.isChain_cons.1 hps
  rw [List.getLast?_reverse] at hmeets
  have hback : TidyBack breaks before := List.isChain_reverse.1 hbefore
  have hnew : TidyBack breaks (Markdown.addPiece before p) ∧
      ∀ q, p.Meets breaks q → ∀ x ∈ (Markdown.addPiece before p).head?, x.Meets breaks q := by
    by_cases hrun : ∃ r, p = .run r
    · obtain ⟨r, rfl⟩ := hrun
      exact hback.closeRun
    · have e : Markdown.addPiece before p = p :: before := by
        rw [Markdown.addPiece]
        exact fun r hr => hrun ⟨r, hr⟩
      rw [e]
      refine ⟨List.isChain_cons.2 ⟨fun x hx => hmeets x hx p rfl, hback⟩, fun q hq x hx => ?_⟩
      cases hx
      exact hq
  refine List.isChain_append.2 ⟨List.isChain_reverse.2 hnew.1, hps, fun x hx q hq => ?_⟩
  rw [List.getLast?_reverse] at hx
  exact hnew.2 q (hp q hq) x hx

theorem addPiece_mark {before : List Piece} (p : Piece) (h : TidyBack breaks before) :
    addPiece (before.map (Piece.mark breaks behind)) (p.mark breaks behind) =
      (addPiece before p).map (Piece.mark breaks behind) := by
  by_cases hrun : ∃ r, p = .run r
  · obtain ⟨r, rfl⟩ := hrun
    exact closeRun_mark r.size r h
  · have hp : ∀ r, p ≠ .run r := fun r hr => hrun ⟨r, hr⟩
    rw [addPiece, addPiece, List.map_cons]
    · exact hp
    · exact Piece.mark_ne_run hp

theorem foldl_addPiece_mark {ps before : List Piece} (h : Tidy breaks (before.reverse ++ ps)) :
    (ps.map (Piece.mark breaks behind)).foldl addPiece (before.map (Piece.mark breaks behind)) =
      (ps.foldl addPiece before).map (Piece.mark breaks behind) := by
  induction ps generalizing before with
  | nil => rfl
  | cons p ps ih =>
    rw [List.map_cons, List.foldl_cons, List.foldl_cons,
      addPiece_mark p (List.isChain_reverse.1 h.left_of_append)]
    exact ih h.addPiece

theorem pairRuns_mark {ps : List Piece} (h : Tidy breaks ps) :
    pairRuns (ps.map (Piece.mark breaks behind)) =
      (pairRuns ps).map (Piece.mark breaks behind) := by
  have hfold := @foldl_addPiece_mark breaks behind ps [] h
  unfold pairRuns
  rw [List.map_nil] at hfold
  rw [hfold, List.map_reverse]

theorem Tidy.foldl_addPiece {ps before : List Piece} (h : Tidy breaks (before.reverse ++ ps)) :
    Tidy breaks (ps.foldl Markdown.addPiece before).reverse := by
  induction ps generalizing before with
  | nil => rwa [List.append_nil] at h
  | cons p ps ih => exact ih h.addPiece

theorem Tidy.pairRuns {ps : List Piece} (h : Tidy breaks ps) : Tidy breaks (pairRuns ps) :=
  @Tidy.foldl_addPiece breaks ps [] h

end

/-! ## places -/

def Piece.places : Piece → List Nat
  | .lineEnd place => [place]
  | .node n => n.places
  | _ => []

def placesOf (ps : List Piece) : List Nat := ps.flatMap Piece.places

theorem placesOf_nil : placesOf [] = [] := rfl

theorem placesOf_cons (p : Piece) (ps : List Piece) :
    placesOf (p :: ps) = p.places ++ placesOf ps := List.flatMap_cons

theorem placesOf_append (ps qs : List Piece) :
    placesOf (ps ++ qs) = placesOf ps ++ placesOf qs := List.flatMap_append

theorem Piece.places_of_text? {p : Piece} {s : Text} (h : p.text? = some s) : p.places = [] := by
  cases p with
  | data _ | run _ | bracket _ => rfl
  | _ => cases h

theorem placesOf_merge (ps : List Piece) : placesOf (merge ps) = placesOf ps := by
  induction ps with
  | nil => rfl
  | cons p ps ih =>
    rw [merge, placesOf_cons, ← ih]
    split
    · rfl
    · next s hs =>
      rw [Piece.places_of_text? hs]
      split
      · next t rest e =>
        rw [e]
        rfl
      · rfl

theorem placesIn_textOf (s : Text) : placesIn (textOf s) = [] := by
  unfold textOf
  split <;> rfl

/-- settling may drop the place of a line ending that is a line break by the blanks before it -/
theorem placesIn_settleMerged (fresh : Bool) (ps : List Piece) :
    (placesIn (settleMerged fresh ps)).Sublist (placesOf ps) := by
  induction fresh, ps using settleMerged.induct with
  | case1 => exact .refl _
  | case2 fresh s place ps ih =>
    rw [settleMerged, placesIn_append, placesIn_textOf, List.nil_append]
    split
    · exact ih.trans (List.sublist_cons_self place _)
    · exact ih.cons_cons place
  | case3 fresh s ps hno ih =>
    rw [settleMerged, placesIn_append, placesIn_textOf]
    · exact ih
    · exact hno
  | case4 fresh place ps ih =>
    rw [settleMerged]
    exact ih.cons_cons place
  | case6 fresh n ps ih =>
    rw [settleMerged, placesIn]
    exact ih.append_left n.places
  | case5 fresh ps ih | case7 fresh r ps ih | case8 fresh b ps ih =>
    rw [settleMerged]
    exact ih

theorem placesIn_settle (ps : List Piece) : (placesIn (settle ps)).Sublist (placesOf ps) :=
  placesOf_merge ps ▸ placesIn_settleMerged false (merge ps)

theorem placesOf_dropEndBlanks (ps : List Piece) : placesOf (dropEndBlanks ps) = placesOf ps := by
  induction ps using dropEndBlanks.induct with
  | case1 | case2 => rfl
  | case3 p ps hno ih =>
    rw [dropEndBlanks, placesOf_cons, ih, placesOf_cons]
    exact hno

theorem placesIn_settleAll (ps : List Piece) : (placesIn (settleAll ps)).Sublist (placesOf ps) := by
  have h := placesIn_settleMerged true (dropEndBlanks (merge ps))
  rwa [placesOf_dropEndBlanks, placesOf_merge] at h

theorem places_emphasize (marker : Char) (taken : Nat) (inner : List Inline) :
    (emphasize marker taken inner).places = placesIn inner := by
  unfold emphasize
  split
  · rfl
  · split <;> rfl

theorem Run.placesOf_less (r : Run) (taken : Nat) : placesOf (r.less taken).reverse = [] := by
  unfold less
  split <;> rfl

theorem placesOf_closeRun (n : Nat) (r : Run) (before : List Piece) :
    (placesOf (closeRun n r before).reverse).Sublist (placesOf before.reverse) := by
  have hplain : ∀ r before, (placesOf (Piece.run r :: before).reverse).Sublist
      (placesOf before.reverse) := by
    intro r before
    rw [List.reverse_cons, placesOf_append, placesOf_cons, placesOf_nil]
    exact (List.append_nil _).symm ▸ .refl _
  induction n generalizing r before with
  | zero => exact hplain r before
  | succ n ih =>
    rw [closeRun]
    split
    · split
      · exact hplain r before
      · next inner o rest hfound =>
        have hplaces : ∀ marker taken, (placesOf (Piece.node (emphasize marker taken
              (settle inner.reverse)) :: o.less taken ++ rest).reverse).Sublist
            (placesOf before.reverse) := by
          intro marker taken
          rw [findOpener?_eq hfound]
          simp only [List.cons_append, List.reverse_cons, List.reverse_append, placesOf_append,
            o.placesOf_less, placesOf_cons, placesOf_nil, Piece.places, places_emphasize,
            List.append_nil]
          exact (placesIn_settle inner.reverse).append_left _
        dsimp only
        generalize (if (decide (1 < o.size) && decide (1 < r.size)) = true then 2 else 1) = taken
        split
        · exact hplaces _ _
        · exact (ih _ _).trans (hplaces _ _)
    · exact hplain r before

theorem placesOf_pairRuns (ps : List Piece) : (placesOf (pairRuns ps)).Sublist (placesOf ps) := by
  have hstep : ∀ (p : Piece) (before : List Piece), (placesOf (addPiece before p).reverse).Sublist
      (placesOf before.reverse ++ p.places) := by
    intro p before
    by_cases hrun : ∃ r, p = .run r
    · obtain ⟨r, rfl⟩ := hrun
      exact (placesOf_closeRun r.size r before).trans (List.sublist_append_left _ _)
    · rw [addPiece, List.reverse_cons, placesOf_append, placesOf_cons, placesOf_nil,
        List.append_nil]
      · exact fun r hr => hrun ⟨r, hr⟩
  have hfold : ∀ before, (placesOf (ps.foldl addPiece before).reverse).Sublist
      (placesOf before.reverse ++ placesOf ps) := by
    induction ps with
    | nil => exact fun _ => List.sublist_append_left _ _
    | cons p ps ih =>
      intro before
      refine (ih (addPiece before p)).trans ?_
      rw [placesOf_cons, ← List.append_assoc]
      exact (hstep p before).append_right _
  exact hfold []

end MarkdownModule.Markdown

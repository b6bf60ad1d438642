import MarkdownModule.Proofs.Markdown.Firm

/-!
# Paragraphs with line breaks

The inline content of a firm paragraph with a backslash before each line ending in its texts is the
content of that paragraph with these as line breaks.

* `Scope.firm`                    firm paragraphs
* `Scope.readPieces_breakEnds`    their content with backslashes
-/

namespace MarkdownModule.Markdown

/-! ## a check box before a line ending -/

section
variable {bottom : List Piece}

theorem findOpener?_append (hbottom : ∀ p ∈ bottom, ∀ o, p ≠ .run o) (r : Run)
    (before : List Piece) : findOpener? r (before ++ bottom) =
      (findOpener? r before).map fun t => (t.1, t.2.1, t.2.2 ++ bottom) := by
  induction before with
  | nil =>
    have hnone : ∀ ps : List Piece, (∀ p ∈ ps, ∀ o, p ≠ .run o) → findOpener? r ps = none := by
      intro ps hps
      induction ps with
      | nil => rfl
      | cons p ps ih =>
        obtain ⟨hp, hps⟩ := List.forall_mem_cons.1 hps
        rw [findOpener?_skip hp, ih hps]
        rfl
    exact hnone bottom hbottom
  | cons p before ih =>
    by_cases hp : ∃ o, p = .run o
    · obtain ⟨o, rfl⟩ := hp
      rw [List.cons_append, findOpener?, findOpener?, ih]
      split
      · rfl
      · rw [Option.map_map, Option.map_map]
        rfl
    · have hp : ∀ o, p ≠ .run o := fun o ho => hp ⟨o, ho⟩
      rw [List.cons_append, findOpener?_skip hp, findOpener?_skip hp, ih, Option.map_map,
        Option.map_map]
      rfl

theorem closeRun_append (hbottom : ∀ p ∈ bottom, ∀ o, p ≠ .run o) (n : Nat) (r : Run)
    (before : List Piece) : closeRun n r (before ++ bottom) = closeRun n r before ++ bottom := by
  induction n generalizing r before with
  | zero => rfl
  | succ n ih =>
    rw [closeRun, closeRun]
    split
    · rw [findOpener?_append hbottom]
      cases findOpener? r before with
      | none => rfl
      | some t =>
        obtain ⟨inner, o, rest⟩ := t
        simp only [Option.map_some]
        generalize (if (decide (1 < o.size) && decide (1 < r.size)) = true then 2 else 1) = taken
        split
        · simp only [List.cons_append, List.append_assoc]
        · rw [← ih]
          simp only [List.cons_append, List.append_assoc]
    · rfl

theorem pairRuns_append (hbottom : ∀ p ∈ bottom, ∀ o, p ≠ .run o) (ps : List Piece) :
    ∃ qs, pairRuns (bottom ++ ps) = bottom ++ qs := by
  have hadd : ∀ (before : List Piece) p,
      ∃ before', addPiece (before ++ bottom.reverse) p = before' ++ bottom.reverse := by
    intro before p
    by_cases hp : ∃ r, p = .run r
    · obtain ⟨r, rfl⟩ := hp
      exact ⟨_, closeRun_append (fun p hp => hbottom p (List.mem_reverse.1 hp)) r.size r before⟩
    · refine ⟨p :: before, ?_⟩
      rw [addPiece]
      · rfl
      · exact fun r hr => hp ⟨r, hr⟩
  have hfold : ∀ before : List Piece,
      ∃ before', ps.foldl addPiece (before ++ bottom.reverse) = before' ++ bottom.reverse := by
    induction ps with
    | nil => exact fun before => ⟨before, rfl⟩
    | cons p ps ih =>
      intro before
      obtain ⟨before', h⟩ := hadd before p
      rw [List.foldl_cons, h]
      exact ih before'
  have hstart : ∀ (ps before : List Piece), (∀ p ∈ ps, ∀ o, p ≠ .run o) →
      ps.foldl addPiece before = ps.reverse ++ before := by
    intro ps
    induction ps with
    | nil => exact fun _ _ => rfl
    | cons p ps ih =>
      intro before hps
      obtain ⟨hp, hps⟩ := List.forall_mem_cons.1 hps
      have hp : addPiece before p = p :: before := by
        rw [addPiece]
        exact hp
      rw [List.foldl_cons, hp, ih _ hps, List.reverse_cons, List.append_assoc]
      rfl
  obtain ⟨before', h⟩ := hfold []
  refine ⟨before'.reverse, ?_⟩
  rw [pairRuns, List.foldl_append, hstart bottom [] hbottom, List.append_nil]
  rw [List.nil_append] at h
  rw [h, List.reverse_append, List.reverse_reverse]

end

namespace Scope
variable {e : Scope}

theorem Step.keeps {bottom before : List Piece} (hbottom : ∀ p ∈ bottom, p.isBracket = false)
    {c : Char} {r : Text} {t : List Piece × Text} (h : Step (before ++ bottom) c r t) :
    ∃ before', t.1 = before' ++ bottom := by
  have hcut : ∀ {inner outer b}, before ++ bottom = inner ++ .bracket b :: outer →
      ∃ m, outer = m ++ bottom := by
    intro inner outer b h
    have hopen : .bracket b ∉ bottom := fun hb => nomatch hbottom _ hb
    obtain ⟨a, -, ha⟩ | ⟨a, -, ha⟩ := List.append_eq_append_iff.1 h
    · exact absurd (ha ▸ List.mem_append_right a List.mem_cons_self) hopen
    · cases a with
      | nil =>
        rw [List.nil_append] at ha
        exact absurd (ha ▸ List.mem_cons_self) hopen
      | cons p a => exact ⟨a, (List.cons.inj ha).2⟩
  cases h with
  | @piece x => exact ⟨x :: before, rfl⟩
  | @plain inner outer b _ h =>
    obtain ⟨m, rfl⟩ := hcut h
    exact ⟨plainBracket inner b m, by simp [plainBracket]⟩
  | @closed inner outer b d _ _ h =>
    obtain ⟨m, rfl⟩ := hcut h
    have hmap : bottom.map Piece.deactivate = bottom := by
      refine (List.map_congr_left fun p hp => ?_).trans (List.map_id bottom)
      cases p with
      | bracket b => exact nomatch hbottom _ hp
      | _ => rfl
    refine ⟨closedBracket inner b m d, ?_⟩
    unfold closedBracket
    rw [List.map_append, hmap]
    split <;> rfl

theorem scan_keeps (he : e.settings.autolinkLiteral = false) {bottom : List Piece}
    (hbottom : ∀ p ∈ bottom, p.isBracket = false) (ends : List Nat) (fuel : Nat)
    (last : Option Char) (before : List Piece) (s : Text) :
    ∃ before', e.scan ends fuel last (before ++ bottom) s = before' ++ bottom := by
  induction fuel generalizing last before s with
  | zero => exact ⟨before, rfl⟩
  | succ fuel ih =>
    cases s with
    | nil => exact ⟨before, rfl⟩
    | cons c r =>
      rw [scan_cons]
      by_cases hc : c = '\n'
      · subst hc
        exact ih _ (.lineEnd (placeBefore ends r) :: before) r
      · obtain ⟨before', h⟩ := (step_cases he ends last (before ++ bottom) hc r).keeps hbottom
        rw [h]
        exact ih ..

variable (e) in
/-- the check box that begins a text where one may stand, and the text after it -/
def box? (inItem : Bool) (s : Text) : Option (Bool × Text) :=
  if inItem && e.settings.taskListItem then readCheckBox? s else none

theorem readPieces_eq (inItem : Bool) (c : Content) : e.readPieces inItem c =
    settleAll (pairRuns (match e.box? inItem c.text with
      | some (checked, rest) =>
        e.scan c.lineEnds.reverse c.text.length (some ']') [.node (.checkBox checked)] rest
      | none => e.scan c.lineEnds.reverse c.text.length none [] c.text).reverse) := rfl

/-- whether a text after a check box goes on with its line or with another one -/
def goesOn (r : Text) : Bool :=
  match r with
  | [] => false
  | '\n' :: _ => true
  | d :: _ => isGap d && !(r.dropWhile isGap).isEmpty

theorem goesOn_iff {r : Text} : goesOn r = true ↔
    r.head? = some '\n' ∨ (r.head?.any isGap = true ∧ r.dropWhile isGap ≠ []) := by
  unfold goesOn
  split
  · simp
  · simp
  · next d r hno =>
    have hd : d ≠ '\n' := hno
    simp [hd]

theorem readCheckBox?_iff {c : Char} {r : Text} {checked : Bool} :
    readCheckBox? ('[' :: c :: ']' :: r) = some (checked, r) ↔ goesOn r = true ∧
      ((isWide c = true ∧ checked = false) ∨
        (isWide c = false ∧ (c = 'x' ∨ c = 'X') ∧ checked = true)) := by
  have hread : readCheckBox? ('[' :: c :: ']' :: r) =
      if !goesOn r then none else if isWide c then some (false, r)
      else if c = 'x' || c = 'X' then some (true, r) else none := rfl
  rw [hread]
  cases goesOn r with
  | false => simp
  | true =>
    cases isWide c with
    | true => cases checked <;> simp
    | false =>
      by_cases hx : c = 'x' ∨ c = 'X'
      · cases checked <;> simp [hx]
      · simp [hx]
theorem box?_eq_some {inItem checked : Bool} {s r : Text} : e.box? inItem s = some (checked, r) ↔
    (inItem && e.settings.taskListItem) = true ∧ ∃ c, s = '[' :: c :: ']' :: r ∧
      goesOn r = true ∧ ((isWide c = true ∧ checked = false) ∨
        (isWide c = false ∧ (c = 'x' ∨ c = 'X') ∧ checked = true)) := by
  unfold box?
  split
  · next htask =>
    refine ⟨fun h => ⟨htask, ?_⟩, fun ⟨_, c, hs, h⟩ => hs ▸ readCheckBox?_iff.2 h⟩
    obtain ⟨c, rfl⟩ := readCheckBox?_eq_some h
    exact ⟨c, rfl, readCheckBox?_iff.1 h⟩
  · next htask => exact ⟨nofun, fun h => absurd h.1 htask⟩

/-- a check box at the end of its line -/
theorem readPieces_checkBox (he : e.settings.autolinkLiteral = false) {inItem : Bool} {c : Content}
    {checked : Bool} {r : Text} (h : e.box? inItem c.text = some (checked, '\n' :: r)) :
    ∃ is, e.readPieces inItem c =
      .checkBox checked :: .softBreak (placeBefore c.lineEnds.reverse r) :: is := by
  obtain ⟨-, d, hd, -⟩ := box?_eq_some.1 h
  obtain ⟨fuel, hfuel⟩ : ∃ fuel, c.text.length = fuel + 1 := ⟨r.length + 3, by rw [hd]; rfl⟩
  have hbottom : ∀ p ∈ [Piece.lineEnd (placeBefore c.lineEnds.reverse r), .node (.checkBox checked)],
      p.isBracket = false := by
    simp [Piece.isBracket]
  obtain ⟨before, hscan⟩ := scan_keeps he hbottom c.lineEnds.reverse fuel (some '\n') [] r
  have hrun : ∀ p ∈ [Piece.node (.checkBox checked), .lineEnd (placeBefore c.lineEnds.reverse r)],
      ∀ o, p ≠ .run o := by
    simp
  obtain ⟨qs, hqs⟩ := pairRuns_append hrun before.reverse
  have hlast : lastBefore ('\n' :: r) r = some '\n' := lastBefore_append ['\n'] r
  have hreverse : (before ++ [Piece.lineEnd (placeBefore c.lineEnds.reverse r),
      .node (.checkBox checked)]).reverse = [.node (.checkBox checked),
        .lineEnd (placeBefore c.lineEnds.reverse r)] ++ before.reverse := by simp
  rw [List.nil_append] at hscan
  rw [readPieces_eq, h, hfuel]
  dsimp only
  rw [scan_cons, step_lineEnd, hlast, hscan, hreverse, hqs]
  exact ⟨_, rfl⟩

/-! ## whole paragraphs -/

section
variable {breaks : Nat → Bool}

theorem box?_breakEnds {ends : List Nat} {inItem checked : Bool} {s r : Text}
    (h : e.box? inItem s = some (checked, r))
    (hhard : ∀ w, s = w ++ r → Hard breaks ends w r)
    (hend : ∀ u, r = '\n' :: u → breaksAt breaks ends u = false) :
    e.box? inItem (breakEnds breaks ends s) = some (checked, breakEnds breaks ends r) := by
  obtain ⟨htask, c, rfl, hgoes, hbox⟩ := box?_eq_some.1 h
  refine box?_eq_some.2 ⟨htask, c, (hhard ['[', c, ']'] rfl).append, goesOn_iff.2 ?_, hbox⟩
  rcases goesOn_iff.1 hgoes with hgoes | ⟨hgap, hgoes⟩
  · obtain ⟨u, rfl⟩ := List.head?_eq_some_iff.1 hgoes
    rw [breakEnds, hend u rfl]
    exact .inl rfl
  · obtain ⟨d, r, rfl⟩ := List.exists_cons_of_ne_nil (show r ≠ [] by rintro rfl; cases hgap)
    have hgap : isGap d = true := hgap
    have hd : d ≠ '\n' := by
      rintro rfl
      cases hgap
    refine .inr ⟨by rw [breakEnds_cons hd]; exact hgap, ?_⟩
    rw [(span_breakEnds breaks ends (by decide) (by decide) _).2]
    exact breakEnds_ne_nil hgoes

theorem box?_breakEnds_none {ends : List Nat} {inItem : Bool} {s : Text}
    (h : e.box? inItem s = none) : e.box? inItem (breakEnds breaks ends s) = none := by
  rw [Option.eq_none_iff_forall_ne_some]
  rintro ⟨checked, r⟩ hread
  obtain ⟨htask, c, hs, hgoes, hbox⟩ := box?_eq_some.1 hread
  have hc : c ≠ '\\' := by
    rintro rfl
    rcases hbox with ⟨hbox, -⟩ | ⟨-, hbox, -⟩
    · exact absurd hbox (by decide)
    · exact absurd hbox (by decide)
  obtain ⟨u, rfl, rfl⟩ := exists_of_breakEnds (w := ['[', c, ']']) (by simp [Ne.symm hc]) hs
  have hgoes : goesOn u = true := by
    refine goesOn_iff.2 ?_
    rcases goesOn_iff.1 hgoes with hgoes | ⟨hgap, hgoes⟩
    · exact .inl (head?_breakEnds_eq_some (by decide) u hgoes)
    · rw [(span_breakEnds breaks ends (by decide) (by decide) u).2] at hgoes
      refine .inr ⟨?_, fun hu => hgoes (by rw [hu]; rfl)⟩
      rcases head?_breakEnds breaks ends u with hhead | ⟨-, hhead⟩
      · rw [← hhead, hgap]
      · rw [hhead] at hgap
        exact absurd hgap (by decide)
  have hread : e.box? inItem (['[', c, ']'] ++ u) = some (checked, u) :=
    box?_eq_some.2 ⟨htask, c, rfl, hgoes, hbox⟩
  rw [h] at hread
  cases hread

/-- whether all constructs of a content stay when line endings get a backslash; `inItem` tells
whether it begins an item of a list -/
def firm (e : Scope) (breaks : Nat → Bool) (inItem : Bool) (c : Content) : Bool :=
  cleanEnds breaks c.lineEnds.reverse none c.text &&
    match e.box? inItem c.text with
    | some (checked, rest) => e.firmFrom breaks c.lineEnds.reverse c.text.length (some ']')
        [.node (.checkBox checked)] rest
    | none => e.firmFrom breaks c.lineEnds.reverse c.text.length none [] c.text

theorem endsOf_eq {ends : List Nat} {s : Text} (h : s.count '\n' ≤ ends.length) :
    endsOf ends s = (ends.take (s.count '\n')).reverse := by
  induction s with
  | nil => rfl
  | cons c r ih =>
    by_cases hc : c = '\n'
    · subst hc
      rw [List.count_cons_self] at h ⊢
      rw [endsOf, if_pos rfl, ih (by omega), List.take_add_one, List.reverse_append, placeBefore,
        List.getElem?_eq_getElem h]
      rfl
    · rw [List.count_cons_of_ne hc] at h ⊢
      rw [endsOf, if_neg hc, ih h]

theorem endsOf_eq_reverse {ends : List Nat} {s : Text} (h : s.count '\n' = ends.length) :
    endsOf ends s = ends.reverse := by
  rw [endsOf_eq (Nat.le_of_eq h), h, List.take_length]

/-- the content that the pieces of both texts come to -/
theorem settleAll_brokenPieces {ends : List Nat} {ps : List Piece} (h : TidyBack breaks ps) :
    settleAll (pairRuns (ps.map (brokenPiece breaks ends)).reverse) =
      markAll breaks (settleAll (pairRuns ps.reverse)) := by
  have hps : Tidy breaks ps.reverse := List.isChain_reverse.2 h
  rw [← List.map_reverse, pairRuns_mark hps, settleAll_mark hps.pairRuns]

section
variable {ends : List Nat} {s r : Text}

theorem Reading.start (hclean : cleanEnds breaks ends none s = true) (hnodup : (endsOf ends s).Nodup)
    (henough : s.count '\n' ≤ ends.length) : Reading breaks ends none [] s :=
  ⟨.nil, nofun, nofun, hclean, hnodup, henough⟩

theorem Reading.afterBox {d : Char} (checked : Bool) (hs : s = ['[', d, ']'] ++ r)
    (hclean : cleanEnds breaks ends none s = true) (hnodup : (endsOf ends s).Nodup)
    (henough : s.count '\n' ≤ ends.length) :
    Reading breaks ends (some ']') [.node (.checkBox checked)] r := by
  have hsuffix : r <:+ s := ⟨_, hs.symm⟩
  refine ⟨.singleton _, fun p hp t ht => ?_, fun b hb => ?_, ?_, ?_, ?_⟩
  · cases hp
    cases ht
  · cases List.mem_singleton.1 hb
  · exact cleanEnds_append (w := ['[', d, ']']) (List.cons_ne_nil _ _) (hs ▸ hclean)
  · exact (endsOf_suffix ends hsuffix).nodup hnodup
  · exact Nat.le_trans (hsuffix.sublist.count_le '\n') henough

end

section
variable {inItem : Bool} {c : Content}

/-- the line endings of a text in their order -/
theorem endsOf_lineEnds (h : c.lineEnds.length = c.text.count '\n') :
    endsOf c.lineEnds.reverse c.text = c.lineEnds := by
  rw [endsOf_eq_reverse (by rw [List.length_reverse, h]), List.reverse_reverse]

variable (he : e.settings.autolinkLiteral = false)
  (hlength : c.lineEnds.length = c.text.count '\n') (hnodup : c.lineEnds.Nodup)
  (hplaces : ∀ place ∈ c.lineEnds, breaks place = true →
    place ∈ placesInParagraph (e.readPieces inItem c))
include he hlength hnodup hplaces

/-- the line ending behind a check box is no break -/
theorem breaksAt_afterBox {checked : Bool} {u : Text}
    (hbox : e.box? inItem c.text = some (checked, '\n' :: u)) :
    breaksAt breaks c.lineEnds.reverse u = false := by
  have hends := endsOf_lineEnds hlength
  obtain ⟨-, d, hcut, -⟩ := box?_eq_some.1 hbox
  have hsuffix : '\n' :: u <:+ c.text := ⟨['[', d, ']'], hcut.symm⟩
  have hcount := hsuffix.sublist.count_le '\n'
  rw [List.count_cons_self] at hcount
  have hplace : placeBefore c.lineEnds.reverse u ∈ endsOf c.lineEnds.reverse ('\n' :: u) := by
    rw [endsOf, if_pos rfl]
    exact List.mem_cons_self
  have hplace := (endsOf_suffix c.lineEnds.reverse hsuffix).subset hplace
  rw [hends] at hplace
  obtain ⟨is, his⟩ := readPieces_checkBox he hbox
  have hplacesIn := (hends ▸ placesIn_readPieces he inItem c).nodup hnodup
  rw [his] at hplacesIn hplaces
  rw [breaksAt_eq (by rw [List.length_reverse]; omega)]
  by_contra hbreak
  exact (List.nodup_cons.1 hplacesIn).1 (hplaces _ hplace (by simpa using hbreak))

theorem readPieces_breakEnds (hfirm : e.firm breaks inItem c = true) :
    e.readPieces inItem { text := breakEnds breaks c.lineEnds.reverse c.text } =
      markAll breaks (e.readPieces inItem c) := by
  obtain ⟨hclean, hfirm⟩ := Bool.and_eq_true_iff.1 hfirm
  have henough : c.text.count '\n' ≤ c.lineEnds.reverse.length := by
    rw [List.length_reverse]
    omega
  have hends := endsOf_lineEnds hlength
  have hnodup' : (endsOf c.lineEnds.reverse c.text).Nodup := by rwa [hends]
  have hsub : ∀ ps : List Piece, e.readPieces inItem c = settleAll (pairRuns ps) →
      ∀ place ∈ c.lineEnds, breaks place = true → place ∈ Markdown.placesOf ps := by
    intro ps hps place hplace hbreak
    have hmem := placesInParagraph_subset (hplaces place hplace hbreak)
    rw [hps] at hmem
    exact (placesIn_settled ps).subset hmem
  cases hbox : e.box? inItem c.text with
  | none =>
    rw [hbox] at hfirm
    have hread : e.readPieces inItem c =
        settleAll (pairRuns (e.scan c.lineEnds.reverse c.text.length none [] c.text).reverse) := by
      rw [readPieces_eq, hbox]
    obtain ⟨hscan, htidy⟩ := scan_breakEnds he c.text.length _ (.start hclean hnodup' henough)
      (Nat.le_refl _) (Nat.le_refl _) hfirm (by rw [hends]; exact hsub _ hread)
    rw [readPieces_eq, box?_breakEnds_none hbox, hread, ← settleAll_brokenPieces htidy, ← hscan]
    rfl
  | some t =>
    obtain ⟨checked, rest⟩ := t
    rw [hbox] at hfirm
    have hread : e.readPieces inItem c = settleAll (pairRuns (e.scan c.lineEnds.reverse
        c.text.length (some ']') [.node (.checkBox checked)] rest).reverse) := by
      rw [readPieces_eq, hbox]
    have hscanned := hsub _ hread
    obtain ⟨-, d, hcut, -⟩ := box?_eq_some.1 hbox
    have hsuffix : rest <:+ c.text := ⟨['[', d, ']'], hcut.symm⟩
    obtain ⟨hscan, htidy⟩ := scan_breakEnds he c.text.length
      (breakEnds breaks c.lineEnds.reverse c.text).length
      (.afterBox checked hcut hclean hnodup' henough) hsuffix.length_le
      (length_breakEnds_of_suffix hsuffix) hfirm fun place hplace =>
        hscanned place (hends ▸ (endsOf_suffix c.lineEnds.reverse hsuffix).subset hplace)
    have hhard : ∀ w, c.text = w ++ rest → Hard breaks c.lineEnds.reverse w rest := by
      intro w hw
      rw [hw] at hnodup' henough hends
      exact .of_places hnodup' henough fun place hplace hbreak =>
        (placesOf_scan he _ _ _ _ _).subset (hscanned place (hends ▸ hplace) hbreak)
    have hend : ∀ u, rest = '\n' :: u → breaksAt breaks c.lineEnds.reverse u = false := by
      rintro u rfl
      exact breaksAt_afterBox he hlength hnodup hplaces hbox
    rw [readPieces_eq, box?_breakEnds hbox hhard hend, hread, ← settleAll_brokenPieces htidy,
      ← hscan]
    rfl

end

end

end Scope

end MarkdownModule.Markdown

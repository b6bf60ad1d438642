import MarkdownModule.Proofs.Markdown.BreakEnds

/-!
# Texts that stay with their line breaks

A backslash before a line ending makes it a line break.  It changes nothing else in a text if each
closing bracket closes the same as before, each run of marks is flanked in the same way, and each `<`
that begins nothing cannot begin anything.

* `Scope.firmFrom`          such texts
* `Scope.scan_breakEnds`    they are read alike
-/

namespace MarkdownModule.Markdown

namespace Scope
variable (e : Scope)

/-! ## the conditions -/

/-- the resource that the label of a bracket has -/
def own? (k : BracketKind) (label : Text) : Option Resource :=
  e.resource? (if k = .footnote then '^' :: Label.normal label else Label.normal label)

/-- whether what stands behind a bracket ends where it does, or else the label means the same -/
def foundAlike (own own' : Option Resource) (r : Text) : Bool :=
  match r with
  | '(' :: u => (readResource? u).isSome
  | '[' :: ']' :: _ => own' == own
  | '[' :: u => (Label.read? u).any fun t => (e.resource? (Label.normal t.1)).isSome
  | _ => own' == own

/-- whether a bracket closes the same before `r` with another label -/
def closesAlike (k : BracketKind) (label label' r : Text) : Bool :=
  (k ≠ .footnote || label' = label) &&
    ((k = .footnote && e.footnotes.contains (Label.normal label))
      || e.foundAlike (e.own? k label) (e.own? k label') r)

section
variable (breaks : Nat → Bool) (ends : List Nat)

/-- whether the construct that the character `c` begins stays when line endings get a backslash -/
def firmAt (last : Option Char) (before : List Piece) (c : Char) (r : Text) : Bool :=
  if c = '<' then
    (readAutolink? r).isSome || !e.settings.htmlText || (RawTag.end? r).isSome
      || r.head?.all fun d => !(d.isAlpha || d = '!' || d = '?' || d = '/')
  else if c = ']' then
    match findBracket? before with
    | none => true
    | some (_, b, _) =>
      let label := b.after.take (b.after.length - r.length - 1)
      !b.active || e.closesAlike b.kind label (breakEnds breaks (ends.drop (r.count '\n')) label) r
  else if e.isMarker c then
    match (c :: r).drop (runLength c (c :: r)) with
    | d :: u => !(d = '\n' && breaksAt breaks ends u) || Side.ofChar? last = .word
    | [] => true
  else true

/-- whether all constructs of a text stay when line endings get a backslash; the text is read as it
is by `scan` -/
def firmFrom : Nat → Option Char → List Piece → Text → Bool
  | 0, _, _, _ => true
  | _ + 1, _, _, [] => true
  | fuel + 1, last, before, c :: r =>
    let (pieces, rest) := e.step ends last before c r
    e.firmAt breaks ends last before c r && firmFrom fuel (lastBefore (c :: r) rest) pieces rest

end

/-! ## closing brackets -/

/-- the resource that stands behind a bracket, or else the one of its label -/
def found? (own : Option Resource) (s : Text) : Option (Resource × Text) :=
  match s with
  | '(' :: r => readResource? r <|> own.map fun o => (o, s)
  | '[' :: r => e.reference? own r
  | _ => own.map fun o => (o, s)

theorem closing?_eq (k : BracketKind) (label s : Text) : e.closing? k label s =
    if k = .footnote && e.footnotes.contains (Label.normal label) then
      some (.call (Label.normal label), s)
    else (e.found? (e.own? k label) s).map fun t => (.resource t.1, t.2) := rfl

variable {e} {breaks : Nat → Bool} {ends : List Nat}

theorem found?_other {s : Text} (hopen : s.head? ≠ some '(') (hbracket : s.head? ≠ some '[')
    (own : Option Resource) : e.found? own s = own.map fun o => (o, s) := by
  unfold found?
  split
  · exact absurd rfl hopen
  · exact absurd rfl hbracket
  · rfl

theorem reference?_own (own : Option Resource) (s : Text) :
    e.reference? own (']' :: s) = own.map fun o => (o, s) := by
  have hread : Label.read? (']' :: s) = none := rfl
  unfold reference?
  rw [hread]
  cases own <;> rfl

theorem reference?_full {own : Option Resource} {s label rest : Text} {r : Resource}
    (h : Label.read? s = some (label, rest)) (hr : e.resource? (Label.normal label) = some r) :
    e.reference? own s = some (r, rest) := by
  unfold reference?
  rw [h]
  simp only [Option.bind_some, hr, Option.map_some]

/-- what stands behind a bracket is found before line endings with backslashes -/
theorem found?_breakEnds {own own' : Option Resource} {r : Text}
    (halike : e.foundAlike own own' r = true)
    (hhard : ∀ w x rest, e.found? own r = some (x, rest) → r = w ++ rest →
      Hard breaks ends w rest) :
    e.found? own' (breakEnds breaks ends r) =
      (e.found? own r).map fun t => (t.1, breakEnds breaks ends t.2) := by
  unfold foundAlike at halike
  split at halike
  · next u =>
    obtain ⟨⟨x, rest⟩, hx⟩ := Option.isSome_iff_exists.1 halike
    obtain ⟨w, rfl, hw⟩ := whole_readResource? hx
    have hfound : ∀ own t, e.found? own ('(' :: (w ++ t)) = some (x, t) := by
      intro own t
      show (readResource? (w ++ t) <|> _) = _
      rw [hw t]
      rfl
    have h := (hhard ('(' :: w) x rest (hfound _ _) rfl).append
    rw [List.cons_append] at h
    rw [h, List.cons_append, hfound, hfound]
    rfl
  · next u =>
    rw [breakEnds_cons (by decide), breakEnds_cons (by decide), eq_of_beq halike]
    show e.reference? _ _ = Option.map _ (e.reference? _ _)
    rw [reference?_own, reference?_own]
    cases own <;> rfl
  · next u _ =>
    rw [Option.any_eq_true] at halike
    obtain ⟨⟨l, rest⟩, hl, hresource⟩ := halike
    obtain ⟨x, hx⟩ := Option.isSome_iff_exists.1 hresource
    obtain ⟨w, rfl, hw⟩ := Label.whole_read? hl
    have hfound : ∀ own t, e.found? own ('[' :: (w ++ t)) = some (x, t) :=
      fun own t => reference?_full (hw t) hx
    have h := (hhard ('[' :: w) x rest (hfound _ _) rfl).append
    rw [List.cons_append] at h
    rw [h, List.cons_append, hfound, hfound]
    rfl
  · next hopen _ hbracket =>
    have hopen : r.head? ≠ some '(' := by
      intro h
      obtain ⟨u, rfl⟩ := List.head?_eq_some_iff.1 h
      exact hopen u rfl
    have hbracket : r.head? ≠ some '[' := by
      intro h
      obtain ⟨u, rfl⟩ := List.head?_eq_some_iff.1 h
      exact hbracket u rfl
    rw [found?_other hopen hbracket,
      found?_other (fun h => hopen (head?_breakEnds_eq_some (by decide) r h))
        fun h => hbracket (head?_breakEnds_eq_some (by decide) r h), eq_of_beq halike,
      Option.map_map]
    rfl

theorem closing?_breakEnds {k : BracketKind} {label label' r : Text}
    (halike : e.closesAlike k label label' r = true)
    (hhard : ∀ w x rest, e.closing? k label r = some (x, rest) → r = w ++ rest →
      Hard breaks ends w rest) :
    e.closing? k label' (breakEnds breaks ends r) =
      (e.closing? k label r).map fun t => (t.1, breakEnds breaks ends t.2) := by
  unfold closesAlike at halike
  rw [Bool.and_eq_true, Bool.or_eq_true, Bool.or_eq_true] at halike
  obtain ⟨hlabel, halike⟩ := halike
  by_cases hcall : (k = .footnote && e.footnotes.contains (Label.normal label)) = true
  · have hk := of_decide_eq_true (Bool.and_eq_true_iff.1 hcall).1
    have hlabel : label' = label := by
      rcases hlabel with h | h
      · exact absurd hk (of_decide_eq_true h)
      · exact of_decide_eq_true h
    rw [hlabel, closing?_eq, closing?_eq, if_pos hcall, if_pos hcall]
    rfl
  · have hcall' : ¬(k = .footnote && e.footnotes.contains (Label.normal label')) = true := by
      intro h
      have hk := of_decide_eq_true (Bool.and_eq_true_iff.1 h).1
      rcases hlabel with hlabel | hlabel
      · exact absurd hk (of_decide_eq_true hlabel)
      · rw [of_decide_eq_true hlabel] at h
        exact hcall h
    have halike := halike.resolve_left hcall
    rw [closing?_eq, if_neg hcall] at hhard
    rw [closing?_eq e k label, closing?_eq e k label', if_neg hcall, if_neg hcall',
      found?_breakEnds halike fun w x rest hx hr =>
        hhard w (.resource x) rest (by rw [hx]; rfl) hr, Option.map_map, Option.map_map]
    rfl

/-! ## steps -/

variable (breaks ends) in
/-- a piece of a text, as a piece of that text with its backslashes -/
abbrev brokenPiece : Piece → Piece := Piece.mark breaks (breakEnds breaks ends)

theorem openEscape_breakEnds {before : List Piece} {r : Text}
    (hhard : ∀ w, '\\' :: r = w ++ (openEscape before r).2 →
      Hard breaks ends w (openEscape before r).2) :
    openEscape (before.map (brokenPiece breaks ends)) (breakEnds breaks ends r) =
      ((openEscape before r).1.map (brokenPiece breaks ends),
        breakEnds breaks ends (openEscape before r).2) := by
  cases r with
  | nil => rfl
  | cons d t =>
    by_cases hd : d = '\n'
    · subst hd
      have h : breakEnds breaks ends ('\\' :: '\n' :: t) = '\\' :: '\n' :: breakEnds breaks ends t :=
        (hhard ['\\', '\n'] rfl).append
      rw [breakEnds_cons (by decide)] at h
      rw [(List.cons.inj h).2]
      rfl
    · rw [breakEnds_cons hd]
      unfold openEscape
      dsimp only
      rw [if_neg hd, if_neg hd]
      split
      · rfl
      · rw [breakEnds_cons hd]
        rfl

theorem openSpan_breakEnds {before : List Piece} {c : Char} (hc : c ≠ '\n') (hc' : c ≠ '\\')
    {s : Text} (hhard : ∀ w, s = w ++ (e.openSpan before c s).2 →
      Hard breaks ends w (e.openSpan before c s).2) :
    e.openSpan (before.map (brokenPiece breaks ends)) c (breakEnds breaks ends s) =
      ((e.openSpan before c s).1.map (brokenPiece breaks ends),
        breakEnds breaks ends (e.openSpan before c s).2) := by
  cases hread : readSpan? c s with
  | none =>
    obtain ⟨u, hu, hhead, hdrop⟩ := exists_run c s
    have hrun : runLength c (breakEnds breaks ends s) = runLength c s := by
      rw [hu, breakEnds_replicate hc, runLength_replicate hhead,
        runLength_replicate fun h => hhead (head?_breakEnds_eq_some hc' u h)]
    have hrest : (breakEnds breaks ends s).drop (runLength c s) = breakEnds breaks ends u := by
      conv => lhs; rw [hu, breakEnds_replicate hc, runLength_replicate hhead]
      rw [List.drop_left' (List.length_replicate ..)]
    unfold openSpan
    rw [hread, readSpan?_breakEnds_none hc hc' hread]
    dsimp only
    rw [hrun, hrest, hdrop]
    rfl
  | some t =>
    obtain ⟨x, rest⟩ := t
    obtain ⟨w, -, rfl, hhead, hwhole⟩ := readSpan?_eq_some hread
    have hopen : ∀ before t, t.head? ≠ some c → e.openSpan before c (w ++ t) =
        (.node (if c = '$' then .formula (spanContent e.inTable x)
          else .code (spanContent e.inTable x)) :: before, t) := by
      intro before t ht
      unfold openSpan
      rw [hwhole t ht]
    have hhead' : (breakEnds breaks ends rest).head? ≠ some c := fun h =>
      hhead (head?_breakEnds_eq_some hc' rest h)
    rw [hopen before rest hhead] at hhard ⊢
    rw [(hhard w rfl).append, hopen _ _ hhead', List.map_cons]
    split <;> rfl

theorem end?_none {s : Text}
    (h : (s.head?.all fun d => !(d.isAlpha || d = '!' || d = '?' || d = '/')) = true) :
    RawTag.end? s = none := by
  cases s with
  | nil => rfl
  | cons d r =>
    have h : (!(d.isAlpha || d = '!' || d = '?' || d = '/')) = true := h
    rw [Bool.not_eq_true', Bool.or_eq_false_iff, Bool.or_eq_false_iff, Bool.or_eq_false_iff] at h
    obtain ⟨⟨⟨halpha, hmark⟩, hquestion⟩, hslash⟩ := h
    unfold RawTag.end?
    split
    · next e => cases e; cases hmark
    · next e => cases e; cases hquestion
    · next e => cases e; cases hslash
    · show (if d.isAlpha then _ else _) = _
      rw [halpha]
      rfl

theorem openAngle_plain (before : List Piece) {s : Text} (hs : readAutolink? s = none)
    (hend : (if e.settings.htmlText then RawTag.end? s else none) = none) :
    e.openAngle before s = (.data ['<'] :: before, s) := by
  unfold openAngle
  rw [hs, hend]

theorem openAngle_html (before : List Piece) {w t : Text} (hhtml : e.settings.htmlText = true)
    (ht : readAutolink? (w ++ '>' :: t) = none) (hend : RawTag.end? (w ++ '>' :: t) = some t) :
    e.openAngle before (w ++ '>' :: t) =
      (.node (.html (RawTag.shown ('<' :: (w ++ ['>'])))) :: before, t) := by
  have htake : (w ++ '>' :: t).take ((w ++ '>' :: t).length - t.length) = w ++ ['>'] := by
    have hlength : (w ++ '>' :: t).length - t.length = (w ++ ['>']).length := by
      simp only [List.length_append, List.length_cons, List.length_nil]
      omega
    rw [hlength, show w ++ '>' :: t = (w ++ ['>']) ++ t by simp, List.take_left' rfl]
  unfold openAngle
  rw [ht, hhtml, if_pos rfl, hend]
  dsimp only
  rw [htake]

/-- what is kept up to its bracket -/
theorem breakEnds_kept {w rest : Text}
    (h : ∀ v, '<' :: (w ++ '>' :: rest) = v ++ rest → Hard breaks ends v rest) :
    breakEnds breaks ends (w ++ '>' :: rest) = w ++ '>' :: breakEnds breaks ends rest := by
  have hw := ((h ('<' :: (w ++ ['>'])) (by simp)).tail (by decide)).append
  rwa [List.append_assoc, List.append_assoc] at hw

theorem openAngle_breakEnds {before : List Piece} {r : Text}
    (hfirm : ((readAutolink? r).isSome || !e.settings.htmlText || (RawTag.end? r).isSome
      || r.head?.all fun d => !(d.isAlpha || d = '!' || d = '?' || d = '/')) = true)
    (hhard : ∀ w, '<' :: r = w ++ (e.openAngle before r).2 →
      Hard breaks ends w (e.openAngle before r).2) :
    e.openAngle (before.map (brokenPiece breaks ends)) (breakEnds breaks ends r) =
      ((e.openAngle before r).1.map (brokenPiece breaks ends),
        breakEnds breaks ends (e.openAngle before r).2) := by
  cases hread : readAutolink? r with
  | some t =>
    obtain ⟨x, rest⟩ := t
    obtain ⟨w, rfl, -, hwhole⟩ := readAutolink?_eq_some hread
    have hopen : ∀ before t, e.openAngle before (w ++ '>' :: t) =
        (.node (.autolink x.1 x.2) :: before, t) := by
      intro before t
      unfold openAngle
      rw [hwhole t]
    rw [hopen] at hhard ⊢
    rw [breakEnds_kept hhard, hopen]
    rfl
  | none =>
    have hread' : readAutolink? (breakEnds breaks ends r) = none :=
      readAutolink?_breakEnds_none hread
    cases hhtml : e.settings.htmlText with
    | false =>
      rw [openAngle_plain _ hread (by rw [hhtml]; rfl),
        openAngle_plain _ hread' (by rw [hhtml]; rfl)]
      rfl
    | true =>
      rw [hread, hhtml, Bool.not_true, Option.isSome_none, Bool.false_or, Bool.false_or,
        Bool.or_eq_true] at hfirm
      cases hend : RawTag.end? r with
      | none =>
        have hhead := hfirm.resolve_left (by rw [hend]; exact Bool.false_ne_true)
        have hhead' : ((breakEnds breaks ends r).head?.all fun d =>
            !(d.isAlpha || d = '!' || d = '?' || d = '/')) = true := by
          rcases head?_breakEnds breaks ends r with h | ⟨-, h⟩
          · rw [h, hhead]
          · rw [h]
            rfl
        rw [openAngle_plain _ hread (by rw [hhtml, if_pos rfl, end?_none hhead]),
          openAngle_plain _ hread' (by rw [hhtml, if_pos rfl, end?_none hhead'])]
        rfl
      | some rest =>
        obtain ⟨w, rfl, hwhole⟩ := RawTag.tagged_end? hend
        rw [openAngle_html _ hhtml hread (hwhole rest)] at hhard ⊢
        rw [breakEnds_kept hhard] at hread' ⊢
        rw [openAngle_html _ hhtml hread' (hwhole _)]
        rfl

theorem openImage_other {s : Text} (h : s.head? ≠ some '[') (before : List Piece) :
    e.openImage before s = (.data ['!'] :: before, s) := by
  unfold openImage
  split
  · exact absurd rfl h
  · rfl

theorem openImage_breakEnds (before : List Piece) (r : Text) :
    e.openImage (before.map (brokenPiece breaks ends)) (breakEnds breaks ends r) =
      ((e.openImage before r).1.map (brokenPiece breaks ends),
        breakEnds breaks ends (e.openImage before r).2) := by
  by_cases h : r.head? = some '['
  · obtain ⟨u, rfl⟩ := List.head?_eq_some_iff.1 h
    have hcaret : ((breakEnds breaks ends u).head? == some '^') = (u.head? == some '^') := by
      rw [Bool.eq_iff_iff, beq_iff_eq, beq_iff_eq, head?_breakEnds_iff (by decide) (by decide)]
    have hopen : ∀ before t, e.openImage before ('[' :: t) =
        if e.settings.footnoteCall && t.head? == some '^' then (.data ['!'] :: before, '[' :: t)
        else (.bracket { kind := .image, after := t } :: before, t) := fun _ _ => rfl
    rw [breakEnds_cons (by decide), hopen, hopen, hcaret]
    split
    · rw [breakEnds_cons (by decide)]
      rfl
    · rfl
  · rw [openImage_other h, openImage_other fun h' => h (head?_breakEnds_eq_some (by decide) r h')]
    rfl

theorem openBracket_other {s : Text} (h : s.head? ≠ some '^') (before : List Piece) :
    e.openBracket before s = (.bracket { kind := .link, after := s } :: before, s) := by
  unfold openBracket
  split
  · exact absurd rfl h
  · rfl

theorem openBracket_breakEnds (before : List Piece) (r : Text) :
    e.openBracket (before.map (brokenPiece breaks ends)) (breakEnds breaks ends r) =
      ((e.openBracket before r).1.map (brokenPiece breaks ends),
        breakEnds breaks ends (e.openBracket before r).2) := by
  by_cases h : r.head? = some '^'
  · obtain ⟨u, rfl⟩ := List.head?_eq_some_iff.1 h
    have hopen : ∀ before t, e.openBracket before ('^' :: t) =
        if e.settings.footnoteCall then (.bracket { kind := .footnote, after := t } :: before, t)
        else (.bracket { kind := .link, after := '^' :: t } :: before, '^' :: t) := fun _ _ => rfl
    rw [breakEnds_cons (by decide), hopen, hopen]
    split
    · rfl
    · rw [← breakEnds_cons (by decide : '^' ≠ '\n')]
      rfl
  · rw [openBracket_other h,
      openBracket_other fun h' => h (head?_breakEnds_eq_some (by decide) r h')]
    rfl

theorem take_label {label after r : Text} (h : after = label ++ ']' :: r) :
    after.take (after.length - r.length - 1) = label := by
  have hlength : after.length - r.length - 1 = label.length := by
    rw [h, List.length_append, List.length_cons]
    omega
  rw [hlength, h, List.take_left' rfl]

theorem closeBracket_breakEnds {before : List Piece} {r : Text} (htidy : TidyBack breaks before)
    (hbehind : ∀ b, .bracket b ∈ before → ']' :: r <:+ b.after)
    (hfirm : (match findBracket? before with
      | none => true
      | some (_, b, _) =>
        let label := b.after.take (b.after.length - r.length - 1)
        !b.active
          || e.closesAlike b.kind label (breakEnds breaks (ends.drop (r.count '\n')) label) r) = true)
    (hhard : ∀ w, ']' :: r = w ++ (e.closeBracket before r).2 →
      Hard breaks ends w (e.closeBracket before r).2) :
    e.closeBracket (before.map (brokenPiece breaks ends)) (breakEnds breaks ends r) =
      ((e.closeBracket before r).1.map (brokenPiece breaks ends),
        breakEnds breaks ends (e.closeBracket before r).2) := by
  cases hfound : findBracket? before with
  | none =>
    have hplain : ∀ {before s}, findBracket? before = none →
        e.closeBracket before s = (.data [']'] :: before, s) := by
      intro before s h
      unfold closeBracket
      rw [h]
    rw [hplain hfound, hplain (by rw [findBracket?_mark, hfound]; rfl)]
    rfl
  | some t =>
    obtain ⟨inner, b, outer⟩ := t
    have hmark : findBracket? (before.map (brokenPiece breaks ends)) =
        some (inner.map (brokenPiece breaks ends),
          { b with after := breakEnds breaks ends b.after },
          outer.map (brokenPiece breaks ends)) := by
      rw [findBracket?_mark, hfound]
      rfl
    have hbefore := findBracket?_eq hfound
    obtain ⟨label, hlabel⟩ := hbehind b (hbefore ▸ by simp)
    rw [hfound] at hfirm
    rw [closeBracket_eq e hfound] at hhard ⊢
    rw [closeBracket_eq e hmark]
    dsimp only at hfirm ⊢
    have hlabel' : breakEnds breaks ends b.after =
        breakEnds breaks (ends.drop (r.count '\n')) label ++ ']' :: breakEnds breaks ends r := by
      rw [← hlabel, breakEnds_append, List.count_cons_of_ne (by decide),
        breakEnds_cons (by decide)]
    rw [take_label hlabel.symm] at hfirm hhard ⊢
    rw [take_label hlabel']
    have hplain : (plainBracket inner b outer).map (brokenPiece breaks ends) =
        plainBracket (inner.map (brokenPiece breaks ends))
          { b with after := breakEnds breaks ends b.after }
          (outer.map (brokenPiece breaks ends)) := plainBracket_mark inner outer b
    cases hactive : b.active with
    | false => exact congrArg (·, breakEnds breaks ends r) hplain.symm
    | true =>
      rw [hactive, Bool.not_true, Bool.false_or] at hfirm
      rw [hactive] at hhard
      rw [if_pos rfl] at hhard ⊢
      rw [@closing?_breakEnds e breaks ends b.kind label _ r hfirm]
      · cases hclosing : e.closing? b.kind label r with
        | none => exact congrArg (·, breakEnds breaks ends r) hplain.symm
        | some t =>
          have htidy : TidyBack breaks inner := by
            rw [hbefore] at htidy
            exact htidy.left_of_append
          exact congrArg (·, breakEnds breaks ends t.2) (closedBracket_mark outer b t.1 htidy).symm
      · intro w x rest hclosing hr
        rw [hclosing] at hhard
        exact (hhard (']' :: w) (by rw [hr, List.cons_append])).tail (by decide)

/-- behind a word a run of marks closes and does not open, before a line ending as before a
backslash -/
theorem ofSides_word {last : Option Char} (h : Side.ofChar? last = .word) (strikes : Bool)
    (c : Char) (k : Nat) :
    Run.ofSides strikes c k last (some '\\') = Run.ofSides strikes c k last (some '\n') := by
  have hblank : Side.ofChar? (some '\n') = .blank := by decide
  have hmark : Side.ofChar? (some '\\') = .punctuation := by decide
  have hbeside : ∀ d, d ≠ '*' → d ≠ '_' → d ≠ '~' → Run.isBeside strikes (some d) = false := by
    intro d h1 h2 h3
    simp [Run.isBeside, h1, h2, h3]
  unfold Run.ofSides
  rw [h, hblank, hmark, hbeside '\\' (by decide) (by decide) (by decide),
    hbeside '\n' (by decide) (by decide) (by decide)]
  simp

theorem openRun_breakEnds {last : Option Char} {before : List Piece} {c : Char} {s : Text}
    (hc : c ≠ '\n') (hc' : c ≠ '\\')
    (hfirm : (match s.drop (runLength c s) with
      | d :: u => !(d = '\n' && breaksAt breaks ends u) || Side.ofChar? last = .word
      | [] => true) = true) :
    e.openRun last (before.map (brokenPiece breaks ends)) c (breakEnds breaks ends s) =
      ((e.openRun last before c s).1.map (brokenPiece breaks ends),
        breakEnds breaks ends (e.openRun last before c s).2) := by
  obtain ⟨u, hu, hhead, hdrop⟩ := exists_run c s
  generalize runLength c s = k at hu hdrop hfirm
  rw [hdrop] at hfirm
  have hopen : ∀ before t, t.head? ≠ some c → e.openRun last before c (List.replicate k c ++ t) =
      (.run (Run.ofSides e.settings.strikethrough c k last t.head?) :: before, t) := by
    intro before t ht
    unfold openRun
    rw [runLength_replicate ht]
    dsimp only
    rw [List.drop_left' (List.length_replicate ..)]
  have hsides : Run.ofSides e.settings.strikethrough c k last (breakEnds breaks ends u).head? =
      Run.ofSides e.settings.strikethrough c k last u.head? := by
    cases u with
    | nil => rfl
    | cons d u =>
      rw [breakEnds]
      cases hbreak : d = '\n' && breaksAt breaks ends u with
      | false => rfl
      | true =>
        have hd := of_decide_eq_true (Bool.and_eq_true_iff.1 hbreak).1
        have hfirm : (!(d = '\n' && breaksAt breaks ends u) || Side.ofChar? last = .word) = true :=
          hfirm
        rw [hbreak] at hfirm
        rw [hd]
        exact ofSides_word (of_decide_eq_true hfirm) _ c k
  rw [hu, breakEnds_replicate hc, hopen _ _ hhead,
    hopen _ _ fun h => hhead (head?_breakEnds_eq_some hc' u h), hsides]
  rfl

/-- a construct other than a line ending is read in the text with its backslashes -/
theorem step_breakEnds (he : e.settings.autolinkLiteral = false) {last : Option Char}
    {before : List Piece} {c : Char} {r : Text} (hc : c ≠ '\n') (htidy : TidyBack breaks before)
    (hbehind : ∀ b, .bracket b ∈ before → c :: r <:+ b.after)
    (hfirm : e.firmAt breaks ends last before c r = true)
    (hhard : ∀ w, c :: r = w ++ (e.step ends last before c r).2 →
      Hard breaks ends w (e.step ends last before c r).2) :
    e.step [] last (before.map (brokenPiece breaks ends)) c (breakEnds breaks ends r) =
      ((e.step ends last before c r).1.map (brokenPiece breaks ends),
        breakEnds breaks ends (e.step ends last before c r).2) := by
  unfold firmAt at hfirm
  unfold step at hhard ⊢
  by_cases hescape : c = '\\'
  · subst hescape
    exact openEscape_breakEnds hhard
  simp only [if_neg hescape, if_neg hc] at hhard ⊢
  by_cases href : c = '&'
  · simp only [if_pos href, readReference?_breakEnds]
    cases readReference? r <;> rfl
  simp only [if_neg href] at hhard ⊢
  by_cases hspan : (c = '\x60' || (c = '$' && e.settings.mathText)) = true
  · simp only [if_pos hspan] at hhard ⊢
    rw [← breakEnds_cons hc]
    exact openSpan_breakEnds hc hescape hhard
  simp only [if_neg hspan] at hhard ⊢
  by_cases hangle : c = '<'
  · subst hangle
    exact openAngle_breakEnds hfirm hhard
  simp only [if_neg hangle] at hhard hfirm ⊢
  by_cases himage : c = '!'
  · simp only [if_pos himage]
    exact openImage_breakEnds before r
  simp only [if_neg himage] at hhard ⊢
  by_cases hopen : c = '['
  · simp only [if_pos hopen]
    exact openBracket_breakEnds before r
  simp only [if_neg hopen] at hhard ⊢
  by_cases hclose : c = ']'
  · subst hclose
    exact closeBracket_breakEnds htidy hbehind hfirm hhard
  simp only [if_neg hclose] at hhard hfirm ⊢
  by_cases hmarker : e.isMarker c = true
  · simp only [if_pos hmarker] at hfirm ⊢
    rw [← breakEnds_cons hc]
    exact openRun_breakEnds hc hescape hfirm
  simp only [if_neg hmarker, bareLink?_off he]
  rfl

/-! ## what steps keep -/

namespace Step
variable {before : List Piece} {c : Char} {r : Text} {t : List Piece × Text}

theorem tidy (h : Step before c r t) (htidy : TidyBack breaks before) : TidyBack breaks t.1 := by
  cases h with
  | @piece x _ _ hplaces =>
    refine List.isChain_cons.2 ⟨fun p _ => Piece.meets_of_ne fun place hx => ?_, htidy⟩
    rw [hx] at hplaces
    cases hplaces
  | @plain inner outer b _ h =>
    rw [h] at htidy
    obtain ⟨hinner, houter, hmeets⟩ := List.isChain_append.1 htidy
    have hchain : TidyBack breaks (inner ++ .data b.kind.text :: outer) := by
      refine List.isChain_append.2 ⟨hinner, ?_, fun p hp q hq => ?_⟩
      · exact List.isChain_cons.2 ⟨fun p _ => Piece.meets_of_ne fun _ => nofun, houter.tail⟩
      · cases hq
        exact hmeets p hp (.bracket b) rfl
    exact List.isChain_cons.2 ⟨fun p _ => Piece.meets_of_ne fun _ => nofun, hchain⟩
  | @closed inner outer b d _ _ h =>
    rw [h] at htidy
    have houter := htidy.right_of_append.tail
    obtain ⟨n, hn⟩ := closed_eq_node b inner.reverse d
    refine List.isChain_cons.2 ⟨fun p _ => hn ▸ p.meets_node n, ?_⟩
    split
    · exact houter
    · refine List.isChain_map_of_isChain _ (fun p q hpq place hp hbreak s hs => ?_) houter
      have htext : ∀ p : Piece, p.deactivate.text? = p.text? := by
        intro p
        cases p with
        | bracket b =>
          show Piece.text? (if _ then _ else _) = _
          split <;> rfl
        | _ => rfl
      have hend : ∀ {p : Piece}, p.deactivate = .lineEnd place → p = .lineEnd place := by
        intro p hp
        cases p with
        | bracket b =>
          have hp : (if b.kind = .image then Piece.bracket b else _) = _ := hp
          split at hp <;> cases hp
        | _ => exact hp
      exact hpq place (hend hp) hbreak s (htext q ▸ hs)

theorem behind (h : Step before c r t)
    (hbehind : ∀ b, .bracket b ∈ before → c :: r <:+ b.after) :
    ∀ b, .bracket b ∈ t.1 → t.2 <:+ b.after := by
  have hrest : t.2 <:+ c :: r := h.suffix.trans (List.suffix_cons c r)
  have hbefore : ∀ b, .bracket b ∈ before → t.2 <:+ b.after := fun b hb =>
    hrest.trans (hbehind b hb)
  cases h with
  | piece _ _ _ hafter =>
    intro b hb
    rcases List.mem_cons.1 hb with hb | hb
    · exact hafter b hb.symm ▸ List.suffix_rfl
    · exact hbefore b hb
  | @plain inner outer b' _ h =>
    intro b hb
    refine hbefore b (h ▸ ?_)
    rcases List.mem_cons.1 hb with hb | hb
    · cases hb
    · rcases List.mem_append.1 hb with hb | hb
      · exact List.mem_append_left _ hb
      · rcases List.mem_cons.1 hb with hb | hb
        · cases hb
        · exact List.mem_append_right _ (List.mem_cons_of_mem _ hb)
  | @closed inner outer b' d _ _ h =>
    have houter : ∀ b, .bracket b ∈ outer → .bracket b ∈ before := fun b hb =>
      h ▸ List.mem_append_right _ (List.mem_cons_of_mem _ hb)
    intro b hb
    rcases List.mem_cons.1 hb with hb | hb
    · obtain ⟨n, hn⟩ := closed_eq_node b' inner.reverse d
      rw [hn] at hb
      cases hb
    · split at hb
      · exact hbefore b (houter b hb)
      · obtain ⟨p, hp, hpb⟩ := List.mem_map.1 hb
        cases p with
        | bracket b'' =>
          have hpb : (if b''.kind = .image then Piece.bracket b'' else _) = _ := hpb
          split at hpb <;> cases hpb
          · exact hbefore b (houter b hp)
          · exact hbefore b'' (houter b'' hp)
        | _ => cases hpb

theorem headText (h : Step before c r t) :
    ∀ p ∈ t.1.head?, ∀ s, p.text? = some s → c :: r = s ++ t.2 := by
  intro p hp s hs
  cases h with
  | piece _ _ htext =>
    cases hp
    exact htext s hs
  | plain hc =>
    cases hp
    cases hs
    rw [hc]
    rfl
  | @closed inner _ b d =>
    cases hp
    obtain ⟨n, hn⟩ := closed_eq_node b inner.reverse d
    rw [hn] at hs
    cases hs

end Step

/-! ## runs -/

theorem scan_cons (ends : List Nat) (fuel : Nat) (last : Option Char) (before : List Piece)
    (c : Char) (r : Text) : e.scan ends (fuel + 1) last before (c :: r) =
      e.scan ends fuel (lastBefore (c :: r) (e.step ends last before c r).2)
        (e.step ends last before c r).1 (e.step ends last before c r).2 := rfl

theorem firmFrom_cons (fuel : Nat) (last : Option Char) (before : List Piece) (c : Char)
    (r : Text) : e.firmFrom breaks ends (fuel + 1) last before (c :: r) =
      (e.firmAt breaks ends last before c r &&
        e.firmFrom breaks ends fuel (lastBefore (c :: r) (e.step ends last before c r).2)
          (e.step ends last before c r).1 (e.step ends last before c r).2) := rfl

theorem step_brokenLine (ends : List Nat) (last : Option Char) (before : List Piece) (r : Text) :
    e.step ends last before '\\' ('\n' :: r) = (.brokenLine :: before, r) := rfl

theorem lastBefore_append (w r : Text) : lastBefore (w ++ r) r = w.getLast? := by
  rw [lastBefore, List.length_append, Nat.add_sub_cancel, List.take_left' rfl]

theorem length_breakEnds_of_suffix {s t : Text} (h : t <:+ s) :
    (breakEnds breaks ends t).length ≤ (breakEnds breaks ends s).length := by
  obtain ⟨w, rfl⟩ := h
  rw [breakEnds_append, List.length_append]
  exact Nat.le_add_left _ _

variable (breaks ends) in
/-- the state in which a text is read that is to be read with its backslashes -/
structure Reading (last : Option Char) (before : List Piece) (s : Text) : Prop where
  tidy : TidyBack breaks before
  /-- characters that stand for themselves are read up to the last one -/
  ending : ∀ p ∈ before.head?, ∀ t, p.text? = some t → t.getLast? = last ∧ last.isSome
  /-- what stands behind an open bracket goes on with the text -/
  behind : ∀ b, .bracket b ∈ before → s <:+ b.after
  clean : cleanEnds breaks ends last s = true
  nodup : (placesOf before.reverse ++ endsOf ends s).Nodup
  enough : s.count '\n' ≤ ends.length

theorem Reading.step {last : Option Char} {before : List Piece} {c : Char} {r : Text}
    {t : List Piece × Text} (h : Reading breaks ends last before (c :: r))
    (hstep : Step before c r t) : Reading breaks ends (lastBefore (c :: r) t.2) t.1 t.2 := by
  obtain ⟨w, hw⟩ := hstep.suffix
  have hcut : c :: r = (c :: w) ++ t.2 := by rw [← hw, List.cons_append]
  have hlast : lastBefore (c :: r) t.2 = (c :: w).getLast? := by
    rw [hcut, lastBefore_append]
  have hends : (endsOf ends t.2).Sublist (endsOf ends (c :: r)) :=
    endsOf_suffix ends (hstep.suffix.trans (List.suffix_cons c r))
  refine ⟨hstep.tidy h.tidy, fun p hp s hs => ?_, hstep.behind h.behind, ?_,
    (hstep.placesOf.append hends).nodup h.nodup, ?_⟩
  · have hs := hstep.headText p hp s hs
    rw [hcut] at hs
    rw [hlast, ← List.append_cancel_right hs]
    exact ⟨rfl, by simp⟩
  · rw [hlast]
    exact cleanEnds_append (List.cons_ne_nil c w) (hcut ▸ h.clean)
  · refine Nat.le_trans ?_ h.enough
    exact (hstep.suffix.trans (List.suffix_cons c r)).sublist.count_le '\n'

theorem Reading.lineEnd {last : Option Char} {before : List Piece} {r : Text}
    (h : Reading breaks ends last before ('\n' :: r)) :
    Reading breaks ends (some '\n') (.lineEnd (placeBefore ends r) :: before) r := by
  have henough := h.enough
  rw [List.count_cons_self] at henough
  have hclean := h.clean
  rw [cleanEnds, Bool.and_eq_true] at hclean
  refine ⟨List.isChain_cons.2 ⟨fun p hp place hplace hbreak t ht => ?_, h.tidy⟩, ?_,
    fun b hb => ?_, hclean.2, ?_, by omega⟩
  · cases hplace
    obtain ⟨hlast, hsome⟩ := h.ending p hp t ht
    obtain ⟨d, hd⟩ := Option.isSome_iff_exists.1 hsome
    have htakes := hclean.1
    rw [breaksAt_eq henough, hbreak, hd] at htakes
    have htakes : (!isGap d && d ≠ '|' && d ≠ '\\') = true := htakes
    rw [Bool.and_eq_true, Bool.and_eq_true, Bool.not_eq_true'] at htakes
    exact ⟨d, hlast.trans hd, htakes.1.1⟩
  · intro p hp t ht
    cases hp
    cases ht
  · rcases List.mem_cons.1 hb with hb | hb
    · cases hb
    · exact (List.suffix_cons '\n' r).trans (h.behind b hb)
  · have hnodup := h.nodup
    rw [endsOf, if_pos rfl] at hnodup
    rw [List.reverse_cons, placesOf_append, List.append_assoc]
    exact hnodup

/-- a line ending that a construct took does not become a break -/
theorem Reading.hard (he : e.settings.autolinkLiteral = false) {fuel : Nat} {last : Option Char}
    {before : List Piece} {c : Char} {r : Text} (h : Reading breaks ends last before (c :: r))
    (hc : c ≠ '\n') (hplaces : ∀ place ∈ endsOf ends (c :: r), breaks place = true →
      place ∈ placesOf (e.scan ends (fuel + 1) last before (c :: r)).reverse) {w : Text}
    (hw : c :: r = w ++ (e.step ends last before c r).2) :
    Hard breaks ends w (e.step ends last before c r).2 := by
  rw [scan_cons] at hplaces
  have hstep := step_cases he ends last before hc r
  have hscan := placesOf_scan he ends fuel (lastBefore (c :: r) (e.step ends last before c r).2)
    (e.step ends last before c r).1 (e.step ends last before c r).2
  obtain ⟨-, hnodup, hdisjoint⟩ := List.nodup_append.1 h.nodup
  have henough := h.enough
  generalize e.step ends last before c r = t at *
  generalize lastBefore (c :: r) t.2 = last' at *
  rw [hw] at hnodup henough hplaces hdisjoint
  refine .of_places hnodup henough fun place hplace hbreak => ?_
  have hmem := hscan.subset (hplaces place hplace hbreak)
  refine (List.mem_append.1 hmem).resolve_left fun hbefore => ?_
  exact hdisjoint _ (hstep.placesOf.subset hbefore) _ hplace rfl

/-- a line ending is read as it is, or with its backslash as a break -/
theorem scan_lineEnd {fuel : Nat} {last : Option Char} {before : List Piece} {r : Text}
    (hends : r.count '\n' < ends.length) :
    e.scan [] (fuel + 1) last before (breakEnds breaks ends ('\n' :: r)) =
      e.scan [] fuel (some '\n') (brokenPiece breaks ends (.lineEnd (placeBefore ends r)) :: before)
        (breakEnds breaks ends r) := by
  rw [breakEnds, breaksAt_eq hends]
  cases hbreak : breaks (placeBefore ends r) with
  | false =>
    have hlast : lastBefore ('\n' :: breakEnds breaks ends r) (breakEnds breaks ends r) =
      some '\n' := lastBefore_append ['\n'] _
    show e.scan [] (fuel + 1) last _ ('\n' :: breakEnds breaks ends r) = _
    rw [scan_cons, step_lineEnd, hlast, brokenPiece, Piece.mark, hbreak]
    rfl
  | true =>
    have hlast : lastBefore ('\\' :: '\n' :: breakEnds breaks ends r)
      (breakEnds breaks ends r) = some '\n' := lastBefore_append ['\\', '\n'] _
    show e.scan [] (fuel + 1) last _ ('\\' :: '\n' :: breakEnds breaks ends r) = _
    rw [scan_cons, step_brokenLine, hlast, brokenPiece, Piece.mark, hbreak]
    rfl

/-- a text is read alike with its backslashes -/
theorem scan_breakEnds (he : e.settings.autolinkLiteral = false) (fuel fuel' : Nat)
    {last : Option Char} {before : List Piece} {s : Text}
    (h : Reading breaks ends last before s) (hfuel : s.length ≤ fuel)
    (hfuel' : (breakEnds breaks ends s).length ≤ fuel')
    (hfirm : e.firmFrom breaks ends fuel last before s = true)
    (hplaces : ∀ place ∈ endsOf ends s, breaks place = true →
      place ∈ placesOf (e.scan ends fuel last before s).reverse) :
    e.scan [] fuel' last (before.map (brokenPiece breaks ends)) (breakEnds breaks ends s) =
      (e.scan ends fuel last before s).map (brokenPiece breaks ends) ∧
        TidyBack breaks (e.scan ends fuel last before s) := by
  induction fuel generalizing fuel' last before s with
  | zero =>
    cases List.eq_nil_of_length_eq_zero (Nat.le_zero.1 hfuel)
    cases fuel' <;> exact ⟨rfl, h.tidy⟩
  | succ fuel ih =>
    cases s with
    | nil => cases fuel' <;> exact ⟨rfl, h.tidy⟩
    | cons c r =>
      have hpos : 0 < (breakEnds breaks ends (c :: r)).length :=
        Nat.lt_of_lt_of_le (Nat.succ_pos r.length) (length_le_breakEnds _ _ (c :: r))
      obtain ⟨m, rfl⟩ : ∃ m, fuel' = m + 1 := ⟨fuel' - 1, by omega⟩
      rw [List.length_cons] at hfuel
      rw [firmFrom_cons, Bool.and_eq_true] at hfirm
      obtain ⟨hat, hrest⟩ := hfirm
      rw [scan_cons] at hplaces
      by_cases hc : c = '\n'
      · subst hc
        have hnext := h.lineEnd
        have hends := h.enough
        rw [List.count_cons_self] at hends
        have hlast : lastBefore ('\n' :: r) r = some '\n' := lastBefore_append ['\n'] r
        rw [step_lineEnd, hlast] at hrest hplaces
        have hlength : (breakEnds breaks ends r).length < (breakEnds breaks ends ('\n' :: r)).length :=
          length_breakEnds_lt '\n' r
        have hboth := ih m hnext (by omega) (by omega) hrest fun place hplace =>
          hplaces place ((endsOf_suffix ends (List.suffix_cons '\n' r)).subset hplace)
        rw [List.map_cons] at hboth
        rw [scan_lineEnd (by omega), scan_cons ends, step_lineEnd, hlast, ← hboth.1]
        exact ⟨rfl, hboth.2⟩
      · have hhard : ∀ w, c :: r = w ++ (e.step ends last before c r).2 →
            Hard breaks ends w (e.step ends last before c r).2 := fun w hw => h.hard he hc hplaces hw
        have hstep := step_cases he ends last before hc r
        have hboth := step_breakEnds he hc h.tidy h.behind hat hhard
        have hnext := h.step hstep
        rw [breakEnds_cons hc, List.length_cons] at hfuel'
        rw [breakEnds_cons hc, scan_cons, scan_cons, hboth]
        have hlast : lastBefore (c :: breakEnds breaks ends r)
            (breakEnds breaks ends (e.step ends last before c r).2) =
              lastBefore (c :: r) (e.step ends last before c r).2 := by
          obtain ⟨w, hw⟩ := hstep.suffix.trans (List.suffix_cons c r)
          rw [← breakEnds_cons hc, ← hw, (hhard w hw.symm).append, lastBefore_append,
            lastBefore_append]
        dsimp only
        rw [hlast]
        have hlength : (breakEnds breaks ends (e.step ends last before c r).2).length ≤
            (breakEnds breaks ends r).length := length_breakEnds_of_suffix hstep.suffix
        refine ih m hnext ?_ (by omega) hrest fun place hplace => hplaces place ?_
        · exact Nat.le_trans hstep.suffix.length_le (by omega)
        · exact (endsOf_suffix ends (hstep.suffix.trans (List.suffix_cons c r))).subset hplace

end Scope

end MarkdownModule.Markdown

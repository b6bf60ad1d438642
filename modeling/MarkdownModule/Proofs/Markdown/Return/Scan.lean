import MarkdownModule.Markdown.Block.Resolve
import MarkdownModule.Proofs.Markdown.Return.Block
import MarkdownModule.Proofs.Markdown.Return.Inline

/-!
# The inline content of clean texts

A text is read into pieces from left to right.  Each step takes a part of the text away, and the piece
that it puts to the others is made of that part or has the title of a definition.

* `Scope.Sound`            what a text may refer to
* `Scope.Sound.step`       one step
* `Scope.Sound.read`       the inline content of a text
* `Scope.sound_resolve`    the inline content of blocks
-/

namespace MarkdownModule.Markdown

variable {b : Prop} {s : Text}

/-! ## code, formulas and raw HTML -/

theorem prefix_spanUntil? {c : Char} {n fuel : Nat} {x r : Text}
    (h : spanUntil? c n fuel s = some (x, r)) : x <+: s := by
  induction fuel generalizing s x with
  | zero => cases h
  | succ fuel ih =>
    cases s with
    | nil => cases h
    | cons d u =>
      rw [spanUntil?] at h
      dsimp only at h
      split at h
      · next hd =>
        split at h
        · cases h
          exact List.nil_prefix
        · obtain ⟨t, ht, e⟩ := Option.map_eq_some_iff.1 h
          cases e
          obtain ⟨v, hv, -, hdrop⟩ := exists_run c (d :: u)
          rw [hdrop] at ht
          generalize runLength c (d :: u) = k at hv
          rw [hv]
          exact (List.prefix_append_right_inj _).2 (ih ht)
      · obtain ⟨t, ht, e⟩ := Option.map_eq_some_iff.1 h
        cases e
        exact List.cons_prefix_cons.2 ⟨rfl, ih ht⟩

theorem infix_readSpan? {c : Char} {x r : Text} (h : readSpan? c s = some (x, r)) : x <:+: s :=
  (prefix_spanUntil? h).isInfix.trans (List.drop_suffix _ s).isInfix

theorem prefix_readAutolink? {destination shown r : Text}
    (h : readAutolink? s = some ((destination, shown), r)) : shown <+: s := by
  have hshown := List.takeWhile_prefix inAutolink (l := s)
  unfold readAutolink? at h
  dsimp only at h
  split at h
  · split at h
    · cases h
      exact hshown
    · split at h
      · cases h
        exact hshown
      · cases h
  · cases h

theorem unescapeBars_subset (s : Text) : unescapeBars s ⊆ s := by
  fun_induction unescapeBars s with
  | case1 => exact List.nil_subset _
  | case2 r ih =>
    exact List.Subset.trans (List.cons_subset_cons '|' ih) (List.subset_cons_self _ _)
  | case3 c r _ ih => exact List.cons_subset_cons c ih

theorem plain_spanContent (inTable : Bool) (h : Plain s) : Plain (spanContent inTable s) := by
  have hspaces : Plain (s.map fun c => if c = '\n' then ' ' else c) := by
    intro hmem
    obtain ⟨c, hc, e⟩ := List.mem_map.1 hmem
    split at e
    · cases e
    · exact h (e ▸ hc)
  have hunpad : ∀ t : Text, unpad t ⊆ t := by
    intro t
    unfold unpad
    split
    · exact List.Subset.trans (List.dropLast_subset _) (List.drop_subset 1 t)
    · exact List.Subset.refl t
  unfold spanContent
  dsimp only
  split
  · exact (hspaces.subset (hunpad _)).subset (unescapeBars_subset _)
  · exact hspaces.subset (hunpad _)

theorem RawTag.dropSpaces_suffix (n : Nat) (s : Text) : dropSpaces n s <:+ s := by
  fun_induction dropSpaces n s with
  | case1 n r ih => exact ih.trans (List.suffix_cons ' ' r)
  | case2 => exact List.suffix_rfl

theorem RawTag.plain_shown (h : Plain s) : Plain (shown s) := by
  have hlines : ∀ l ∈ Text.splitOn '\n' s, Plain l :=
    fun l hl => h.part (Text.infix_of_mem_splitOn hl)
  unfold shown
  split
  · exact List.not_mem_nil
  · next l ls hsplit =>
    rw [hsplit] at hlines
    obtain ⟨hl, hls⟩ := List.forall_mem_cons.1 hlines
    refine hl.append fun hmem => ?_
    obtain ⟨m, hm, hmem⟩ := List.mem_flatMap.1 hmem
    exact ((hls m hm).part (dropSpaces_suffix 3 m).isInfix).cons (by decide) hmem

/-! ## resources -/

theorem readResource?_sound {r : Resource} {rest : Text} (hs : Clean b s)
    (h : readResource? s = some (r, rest)) : r.Sound b := by
  have hs' := hs.rest (List.dropWhile_suffix isWide)
  by_cases hclose : ∃ u, s.dropWhile isWide = ')' :: u
  · obtain ⟨u, hu⟩ := hclose
    unfold readResource? at h
    rw [hu] at h
    cases h
    exact nofun
  · rw [readResource?_of_ne (not_exists.1 hclose)] at h
    obtain ⟨⟨destination, u⟩, hdestination, h⟩ := Option.bind_eq_some_iff.1 h
    obtain ⟨w, hw, -⟩ := readDestination?_eq_some hdestination
    have hu : Clean b u := hs'.rest ⟨w, hw.symm⟩
    unfold endResource? at h
    dsimp only at h
    split at h
    · obtain ⟨⟨title, v⟩, htitle, h⟩ := Option.bind_eq_some_iff.1 h
      obtain ⟨rfl, -⟩ := closeResource?_eq_some h
      exact (hu.rest (List.dropWhile_suffix isWide)).titleOf htitle
    · obtain ⟨rfl, -⟩ := closeResource?_eq_some h
      exact nofun

/-- what a closed bracket is, with a title that holds a carriage return only when `b` holds -/
inductive Closing.Sound (b : Prop) : Closing → Prop
  | call (label : Text) : Sound b (.call label)
  | resource {r : Resource} (h : r.Sound b) : Sound b (.resource r)

namespace Scope

/-- pieces after a step that took a part of a text, and what is left of it -/
structure Taken (b : Prop) (s : Text) (t : List Piece × Text) : Prop where
  pieces : SoundPieces b t.1
  rest : t.2 <:+ s

def Sound (b : Prop) (e : Scope) : Prop := ∀ d ∈ e.definitions, d.resource.Sound b

theorem sound_closed (k : Bracket) {inner : List Piece} {c : Closing} (hinner : SoundPieces b inner)
    (hc : c.Sound b) : (closed k inner c).Sound b := by
  cases hc with
  | call label => exact .node (.footnoteCall label)
  | resource hr =>
    have hcontent : SoundInlines b
        (settle (pairRuns (if k.kind = .footnote then .data ['^'] :: inner else inner))) := by
      refine sound_settle (sound_pairRuns ?_)
      split
      · exact .cons (.data (plain_single (by decide))) hinner
      · exact hinner
    unfold closed
    dsimp only
    split
    · exact .node (.image _ hr hcontent)
    · exact .node (.link _ hr hcontent)

theorem sound_deactivate {p : Piece} (h : p.Sound b) : p.deactivate.Sound b := by
  cases h with
  | bracket k =>
    show (if _ then _ else _ : Piece).Sound b
    split
    · exact .bracket k
    · exact .bracket _
  | data h => exact .data h
  | node h => exact .node h
  | lineEnd place => exact .lineEnd place
  | brokenLine => exact .brokenLine
  | run h => exact .run h

namespace Sound

variable {e : Scope} (he : e.Sound b)
include he

theorem resource? {label : Text} {r : Resource} (h : e.resource? label = some r) : r.Sound b := by
  obtain ⟨d, hd, rfl⟩ := Option.map_eq_some_iff.1 h
  exact he d (List.mem_of_find?_eq_some hd)

theorem reference? {own : Option Resource} {r : Resource} {rest : Text}
    (hown : ∀ r ∈ own, r.Sound b) (h : e.reference? own s = some (r, rest)) : r.Sound b := by
  unfold Scope.reference? at h
  dsimp only at h
  split at h
  · next hfull =>
    cases h
    obtain ⟨⟨label, u⟩, -, hr⟩ := Option.bind_eq_some_iff.1 hfull
    obtain ⟨r', hr', e'⟩ := Option.map_eq_some_iff.1 hr
    cases e'
    exact he.resource? hr'
  · cases h
    exact hown _ rfl
  · cases h

theorem closing? {k : BracketKind} {label rest : Text} {c : Closing} (hs : Clean b s)
    (h : e.closing? k label s = some (c, rest)) : c.Sound b := by
  unfold Scope.closing? at h
  dsimp only at h
  split at h
  · cases h
    exact .call _
  · obtain ⟨⟨r, u⟩, hfound, e'⟩ := Option.map_eq_some_iff.1 h
    cases e'
    refine .resource ?_
    generalize (if k = .footnote then '^' :: Label.normal label else Label.normal label) = name
      at hfound
    have hown : ∀ r ∈ e.resource? name, r.Sound b := fun r hr => he.resource? hr
    have hlone : ∀ {t : Text}, (e.resource? name).map (fun o => (o, t)) = some (r, u) → r.Sound b := by
      intro t h
      obtain ⟨own, hr, e'⟩ := Option.map_eq_some_iff.1 h
      cases e'
      exact hown _ hr
    split at hfound
    · next v =>
      cases hread : readResource? v with
      | none =>
        rw [hread] at hfound
        exact hlone hfound
      | some t =>
        rw [hread] at hfound
        cases hfound
        exact readResource?_sound hs.tail hread
    · exact he.reference? hown hfound
    · exact hlone hfound

/-! ## steps -/

variable {before : List Piece} (hbefore : SoundPieces b before)
include hbefore

theorem closeBracket (hs : Clean b s) : SoundPieces b (e.closeBracket before s).1 := by
  have hclose : Plain [']'] := plain_single (by decide)
  cases hfound : findBracket? before with
  | none =>
    unfold Scope.closeBracket
    rw [hfound]
    exact .cons (.data hclose) hbefore
  | some t =>
    obtain ⟨inner, k, outer⟩ := t
    rw [closeBracket_eq e hfound]
    rw [findBracket?_eq hfound] at hbefore
    obtain ⟨hinner, houter⟩ := List.forall_mem_append.1 hbefore
    have houter := (List.forall_mem_cons.1 houter).2
    split
    · exact .cons (.data hclose) (.append hinner (.cons (.data (plain_bracket k.kind)) houter))
    · next c rest hclosing =>
      split at hclosing
      · refine .cons (sound_closed k (SoundPieces.reverse hinner) (he.closing? hs hclosing)) ?_
        split
        · exact houter
        · exact List.forall_mem_map.2 fun p hp => sound_deactivate (houter p hp)
      · cases hclosing

omit he

theorem openSpan {c : Char} {r : Text} (hs : Clean b (c :: r)) :
    SoundPieces b (e.openSpan before c (c :: r)).1 := by
  unfold Scope.openSpan
  split
  · next content rest h =>
    have hshown := plain_spanContent e.inTable (hs.plain.part (infix_readSpan? h))
    refine .cons (.node ?_) hbefore
    split
    · exact .formula hshown
    · exact .code hshown
  · exact .cons (.data (plain_replicate hs.head_ne _)) hbefore

theorem openAngle (hs : Plain s) : SoundPieces b (e.openAngle before s).1 := by
  have hangle : Plain ['<'] := plain_single (by decide)
  unfold Scope.openAngle
  split
  · next destination shown rest h =>
    exact .cons (.node (.autolink _ (hs.part (prefix_readAutolink? h).isInfix))) hbefore
  · split
    · exact .cons (.node (.html (RawTag.plain_shown (Plain.cons (by decide)
        (hs.part (List.take_prefix _ s).isInfix))))) hbefore
    · exact .cons (.data hangle) hbefore

theorem openImage (s : Text) : SoundPieces b (e.openImage before s).1 := by
  have hmark : Plain ['!'] := plain_single (by decide)
  unfold Scope.openImage
  split
  · split
    · exact .cons (.data hmark) hbefore
    · exact .cons (.bracket _) hbefore
  · exact .cons (.data hmark) hbefore

theorem openBracket (s : Text) : SoundPieces b (e.openBracket before s).1 := by
  unfold Scope.openBracket
  split
  · split
    · exact .cons (.bracket _) hbefore
    · exact .cons (.bracket _) hbefore
  · exact .cons (.bracket _) hbefore

theorem openEscape (hs : Plain s) : SoundPieces b (openEscape before s).1 := by
  have hmark : Plain ['\\'] := plain_single (by decide)
  unfold Scope.openEscape
  split
  · exact .cons (.data hmark) hbefore
  · next c r =>
    split
    · exact .cons .brokenLine hbefore
    · split
      · exact .cons (.node (.decoded (plain_single (plain_cons.1 hs).1).brings)) hbefore
      · exact .cons (.data hmark) hbefore

theorem openRun {c : Char} (hc : c ≠ '\r') (last : Option Char) (s : Text) :
    SoundPieces b (e.openRun last before c s).1 := by
  refine .cons (.run ?_) hbefore
  unfold Run.ofSides
  dsimp only
  split
  · exact hc
  · exact hc

include he

theorem step (ends : List Nat) (last : Option Char) {c : Char} {r : Text} (hs : Clean b (c :: r)) :
    Taken b (c :: r) (e.step ends last before c r) := by
  have hchar : SoundPieces b (.data [c] :: before) := .cons (.data (plain_single hs.head_ne)) hbefore
  have hr := hs.tail
  have hrest := List.suffix_cons c r
  unfold Scope.step
  split
  · exact ⟨openEscape hbefore hr.plain, (step_openEscape before r).suffix.trans hrest⟩
  split
  · exact ⟨.cons (.lineEnd _) hbefore, hrest⟩
  split
  · next href =>
    subst href
    split
    · next v rest h =>
      exact ⟨.cons (.node (.decoded (hs.reference h))) hbefore, (readReference?_suffix h).trans hrest⟩
    · exact ⟨hchar, hrest⟩
  split
  · exact ⟨openSpan hbefore hs, (step_openSpan before c r).suffix.trans hrest⟩
  split
  · exact ⟨openAngle hbefore hr.plain, (step_openAngle before r).suffix.trans hrest⟩
  split
  · exact ⟨openImage hbefore r, (step_openImage before r).suffix.trans hrest⟩
  split
  · exact ⟨openBracket hbefore r, (step_openBracket before r).suffix.trans hrest⟩
  split
  · exact ⟨he.closeBracket hbefore hr, (step_closeBracket before r).suffix.trans hrest⟩
  split
  · exact ⟨openRun hbefore hs.head_ne last _, (step_openRun last before c r).suffix.trans hrest⟩
  split
  · next n rest h =>
    unfold bareLink? at h
    split at h
    · obtain ⟨hn, hsuffix⟩ := readBareLink?_sound hs.plain h
      exact ⟨.cons (.node hn) hbefore, hsuffix⟩
    · cases h
  · exact ⟨hchar, hrest⟩

theorem scan (ends : List Nat) (fuel : Nat) (last : Option Char) (hs : Clean b s) :
    SoundPieces b (e.scan ends fuel last before s) := by
  induction fuel generalizing last before s with
  | zero => exact hbefore
  | succ fuel ih =>
    cases s with
    | nil => exact hbefore
    | cons c r =>
      obtain ⟨hpieces, hrest⟩ := he.step hbefore ends last hs
      rw [Scope.scan]
      exact ih hpieces _ (hs.rest hrest)

end Sound

/-! ## whole texts -/

theorem Sound.read {e : Scope} (he : e.Sound b) (inItem : Bool) {c : Content} (hc : c.Sound b) :
    SoundInlines b (e.read inItem c) := by
  have hpieces : SoundInlines b (e.readPieces inItem c) := by
    unfold readPieces
    dsimp only
    refine sound_settleAll (sound_pairRuns (SoundPieces.reverse ?_))
    split
    · next checked rest hbox =>
      split at hbox
      · obtain ⟨d, hd⟩ := readCheckBox?_eq_some hbox
        have hrest : Clean b rest := Clean.rest hc ⟨['[', d, ']'], hd.symm⟩
        exact he.scan (.cons (.node (.checkBox checked)) .nil) _ _ _ hrest
      · cases hbox
    · exact he.scan .nil _ _ _ hc
  unfold Scope.read
  dsimp only
  split
  · exact sound_findMailAll hpieces
  · exact hpieces

end Scope

/-! ## blocks -/

namespace Block

variable {α : Type} {P : α → Prop}

theorem mem_definitionsIn {d : Definition} {bs : List (Block α)} :
    d ∈ definitionsIn bs ↔ ∃ x ∈ bs, d ∈ x.definitions := by
  induction bs with
  | nil => exact ⟨nofun, nofun⟩
  | cons x bs ih => rw [definitionsIn, List.mem_append, ih, List.exists_mem_cons_iff]

theorem mem_definitionsInItems {d : Definition} {is : List (List (Block α))} :
    d ∈ definitionsInItems is ↔ ∃ i ∈ is, d ∈ definitionsIn i := by
  induction is with
  | nil => exact ⟨nofun, nofun⟩
  | cons i is ih => rw [definitionsInItems, List.mem_append, ih, List.exists_mem_cons_iff]

theorem Sound.definitions {x : Block α} (h : x.Sound b P) :
    ∀ d ∈ x.definitions, d.resource.Sound b := by
  induction h with
  | definition h => exact fun d hd => List.mem_singleton.1 hd ▸ h
  | quote h ih | footnote h ih =>
    intro d hd
    obtain ⟨x, hx, hd⟩ := mem_definitionsIn.1 hd
    exact ih x hx d hd
  | list h ih =>
    intro d hd
    obtain ⟨i, hi, hd⟩ := mem_definitionsInItems.1 hd
    obtain ⟨x, hx, hd⟩ := mem_definitionsIn.1 hd
    exact ih i hi x hx d hd
  | thematicBreak | heading | paragraph | code | formula | html | table => exact nofun

end Block

namespace Scope

variable {e : Scope}

theorem exists_of_mem_resolveRow {opens : Bool} {bs : List (Block Content)} {y : Resolved}
    (h : y ∈ resolveRow e opens bs) : ∃ x ∈ bs, ∃ opens, y = resolveBlock e opens x := by
  induction bs generalizing opens with
  | nil => cases h
  | cons x bs ih =>
    rw [resolveRow] at h
    rcases List.mem_cons.1 h with rfl | h
    · exact ⟨x, List.mem_cons_self, opens, rfl⟩
    · obtain ⟨z, hz, hy⟩ := ih h
      exact ⟨z, List.mem_cons_of_mem x hz, hy⟩

theorem exists_of_mem_resolveItems {is : List (List (Block Content))} {row : List Resolved}
    (h : row ∈ resolveItems e is) : ∃ i ∈ is, row = resolveRow e true i := by
  induction is with
  | nil => cases h
  | cons i is ih =>
    rw [resolveItems] at h
    rcases List.mem_cons.1 h with rfl | h
    · exact ⟨i, List.mem_cons_self, rfl⟩
    · obtain ⟨j, hj, hrow⟩ := ih h
      exact ⟨j, List.mem_cons_of_mem i hj, hrow⟩

theorem Sound.readCell (he : e.Sound b) {c : Content} (hc : c.Sound b) :
    SoundInlines b (e.readCell c) :=
  read (e := { e with inTable := true }) he false hc

theorem Sound.resolveBlock (he : e.Sound b) {x : Block Content} (h : x.Sound b (Content.Sound b))
    (opens : Bool) : (resolveBlock e opens x).Sound b (SoundInlines b) := by
  have hrow : ∀ {bs : List (Block Content)}, (∀ x ∈ bs, ∀ opens,
      (Scope.resolveBlock e opens x).Sound b (SoundInlines b)) → ∀ opens, ∀ y ∈ resolveRow e opens bs,
      y.Sound b (SoundInlines b) := by
    intro bs hbs opens y hy
    obtain ⟨x, hx, opens', rfl⟩ := exists_of_mem_resolveRow hy
    exact hbs x hx opens'
  induction h generalizing opens with
  | thematicBreak => exact .thematicBreak
  | heading h => exact .heading (he.read false h)
  | paragraph h => exact .paragraph (he.read opens h)
  | code hl h => exact .code hl h
  | formula h => exact .formula h
  | html h => exact .html h
  | definition h => exact .definition h
  | quote h ih => exact .quote (hrow ih false)
  | footnote h ih => exact .footnote (hrow ih false)
  | list h ih =>
    refine .list fun row hrow' => ?_
    obtain ⟨i, hi, rfl⟩ := exists_of_mem_resolveItems hrow'
    exact hrow (ih i hi) true
  | table hhead hrows =>
    refine .table (List.forall_mem_map.2 fun c hc => he.readCell (hhead c hc)) ?_
    exact List.forall_mem_map.2 fun r hr =>
      List.forall_mem_map.2 fun c hc => he.readCell (hrows r hr c hc)

/-- the inline content of clean blocks -/
theorem sound_resolve (o : MarkdownSettings) {bs : List (Block Content)} (h : SoundBlocks b bs) :
    ∀ y ∈ resolve o bs, y.Sound b (SoundInlines b) := by
  have hscope : (ofBlocks o bs).Sound b := by
    intro d hd
    obtain ⟨x, hx, hd⟩ := Block.mem_definitionsIn.1 hd
    exact (h x hx).definitions d hd
  intro y hy
  obtain ⟨x, hx, opens, rfl⟩ := exists_of_mem_resolveRow hy
  exact hscope.resolveBlock (h x hx) opens

end Scope

end MarkdownModule.Markdown

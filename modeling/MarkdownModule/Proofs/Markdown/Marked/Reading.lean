import MarkdownModule.Proofs.Markdown.Marked.Stack

/-!
# Reading lines with backslashes

A line is in the open paragraph if it gets a backslash.  Then it does to the state what it does
without.

* `Stack.Parts`             lines after which no paragraph is open
* `Stack.Marked.readLine`   one more line keeps two states alike
-/

namespace MarkdownModule.Markdown

open Content (plain broken)

/-! ## lines without a paragraph -/

namespace Stack

variable {o : MarkdownSettings} {s s' : Stack} {l l' : Line}

/-- a line after which no paragraph is open, unless it opens a container -/
def Parts (o : MarkdownSettings) (l : Line) : Prop :=
  l.isBlank = true ∨
    (l.indent ≤ mostIndent ∧ underline? l = none ∧ ∀ lone, Start.ofLine? o lone l ≠ none)

theorem Parts.of_rule (hrule : isRule l = true) (hunder : underline? l = none) : Parts o l := by
  refine .inr ⟨of_decide_eq_true (Bool.and_eq_true_iff.1 hrule).1, hunder, fun lone hnone => ?_⟩
  rw [(Start.ofLine?_eq_none.1 hnone).2.2.2] at hrule
  cases hrule

theorem Parts.fresh_lines (h : Parts o l) (s : Stack) : (s.fresh o l).leaf.lines = [] := by
  rw [Stack.fresh_lines, if_neg]
  intro hbegins
  obtain ⟨hblank, -, hof⟩ := beginsParagraph_iff.1 hbegins
  rcases h with h | ⟨-, hunder, hsome⟩
  · rw [h] at hblank
    cases hblank
  · exact hsome true (hof (by rw [hunder, Option.isSome_none, Bool.and_false]))

theorem goOn_lines (h : s.leaf.isSolid = true) (l : Line) : (s.goOn l).leaf.lines = [] := by
  have hturn := (goOn_turn h l).1
  have hlines : s.leaf.lines = [] := by
    cases hleaf : s.leaf with
    | paragraph lines =>
      rw [hleaf] at h
      cases h
    | closed | indentedCode _ _ | fenced _ _ | html _ _ | table _ _ _ => rfl
  unfold goOn
  split
  · split <;> rfl
  · split
    · exact congrArg Leaf.lines (noteBlank_gains _).2.1
    · dsimp only
      split <;> rfl
  · exact hlines

theorem goOnTable_lines (o : MarkdownSettings) (s : Stack) (columns : List Alignment)
    (head : List Text) (rows : List (List Text)) (l : Line) :
    (s.goOnTable o columns head rows l).leaf.lines = [] := by
  unfold goOnTable
  split
  · next hparts =>
    rw [fresh_lines, if_neg]
    intro hbegins
    obtain ⟨hblank, hindent, hof⟩ := beginsParagraph_iff.1 hbegins
    have hnone := hof rfl
    simp [hblank, hnone, Nat.not_lt.2 hindent] at hparts
  · rfl

theorem Parts.readInner_lines (h : Parts o l) (s : Stack) : (s.readInner o l).leaf.lines = [] := by
  unfold readInner
  split
  · exact h.fresh_lines s
  · unfold goOnParagraph
    split
    · exact congrArg Leaf.lines (noteBlank_gains _).2.1
    · next hblank =>
      obtain ⟨-, hunder, hsome⟩ := h.resolve_left hblank
      split
      · rfl
      · rw [hunder]
        dsimp only
        split
        · exact ((start_gains _ l _).2.1 rfl).2
        · next hnone => exact absurd hnone (hsome false)
  · unfold goOnCode
    split
    · rfl
    · split
      · rfl
      · exact h.fresh_lines _
  · exact goOnTable_lines ..
  · next hclosed hparagraph hcode htable =>
    refine goOn_lines ?_ l
    cases hleaf : s.leaf with
    | closed => exact absurd hleaf hclosed
    | paragraph lines => exact absurd hleaf (hparagraph lines)
    | indentedCode lines blanks => exact absurd hleaf (hcode lines blanks)
    | table columns head rows => exact absurd hleaf (htable columns head rows)
    | fenced f lines | html k lines => rfl

/-! ## parts of a line -/

/-- a line after the mark of a container that it opens -/
def freshIn (o : MarkdownSettings) (s : Stack) (l : Line) : Stack :=
  (openMore o l.rest.length s l).1.fresh o (openMore o l.rest.length s l).2

/-- a line that does not go on with the `n` innermost containers and opens none -/
def goOnOutside (o : MarkdownSettings) (s : Stack) (n : Nat) (l : Line) : Stack :=
  if s.isLazy o l then s.addLazy l else (s.leave n).fresh o l

/-- a line after what goes on with the open containers but for the `n` innermost ones -/
def readRest (o : MarkdownSettings) (s : Stack) (n : Nat) (l : Line) : Stack :=
  if n == 0 && s.leaf.isSolid then s.goOn l
  else
    match Container.open? o (n == 0 && s.leaf.isParagraph) l with
    | some t => ((s.leave n).enter t.1).freshIn o t.2
    | none => if n == 0 then s.readInner o l else s.goOnOutside o n l

theorem readLine_eq {kept left : List Frame} {t : Line}
    (h : follow (s.outer.reverse ++ [s.top]) l = (kept, left, t)) :
    s.readLine o l = (s.withFrames (kept ++ left)).readRest o left.length t := by
  have hwhole : left.isEmpty = (left.length == 0) := by cases left <;> rfl
  unfold readLine readRest
  rw [h]
  dsimp only
  rw [hwhole]
  split
  · rfl
  · cases Container.open? o (left.length == 0 && (s.withFrames (kept ++ left)).leaf.isParagraph) t <;>
      rfl

theorem Parts.readRest_lines (h : Parts o l)
    (hopen : ∀ interrupts, Container.open? o interrupts l = none) (s : Stack) (n : Nat) :
    (s.readRest o n l).leaf.lines = [] := by
  unfold readRest
  split
  · next hsolid => exact goOn_lines (Bool.and_eq_true_iff.1 hsolid).2 l
  · rw [hopen]
    dsimp only
    split
    · exact h.readInner_lines _
    · unfold goOnOutside
      split
      · next hlazy =>
        rcases h with h | ⟨-, -, hsome⟩
        · simp [isLazy, h] at hlazy
        · have hnone := (Bool.and_eq_true_iff.1 (Bool.and_eq_true_iff.1 hlazy).1).2
          exact absurd (Option.isNone_iff_eq_none.1 hnone) (hsome true)
      · exact h.fresh_lines _

/-! ## containers that a line opens -/

theorem openMore_none (h : Container.open? o false l = none) (n : Nat) :
    openMore o n s l = (s, l) := by
  cases n with
  | zero => rfl
  | succ n => rw [openMore, h]

theorem openMore_some {n : Nat} (hn : l.rest.length ≤ n) {c : Container}
    (h : Container.open? o false l = some (c, l')) : ∃ k, k < n ∧ l'.rest.length ≤ k ∧
      openMore o n s l = openMore o k (s.enter c) l' := by
  have hlength := Container.open?_length h
  obtain ⟨k, rfl⟩ : ∃ k, n = k + 1 := ⟨n - 1, by omega⟩
  refine ⟨k, Nat.lt_succ_self k, by omega, ?_⟩
  rw [openMore, h]

theorem openMore_tail (o : MarkdownSettings) (n : Nat) (s : Stack) (l : Line) :
    (openMore o n s l).2.TailOf l := by
  induction n generalizing s l with
  | zero => exact .refl l
  | succ n ih =>
    rw [openMore]
    split
    · next c t hopen => exact (ih (s.enter c) t).trans (Container.open?_tail hopen).1
    · exact .refl l

/-! ## lines with backslashes -/

namespace Marked

variable {breaks : Nat → Bool}

/-- a line where code is open that is moved to the right -/
theorem goOnCode (h : Marked breaks s s') (o : MarkdownSettings) {lines : List Text} {blanks : Nat}
    (hleaf : s.leaf = .indentedCode lines blanks) (hl : l.Alike breaks l')
    (hb : (s.goOnCode o lines blanks l).leaf.lines = [] → breaks l.stop = false) :
    Marked breaks (s.goOnCode o lines blanks l) (s'.goOnCode o lines blanks l') := by
  have hblank : l'.isBlank = l.isBlank := by
    refine hl.isBlank fun hmark => eq_false_of_ne_true fun hblank => ?_
    unfold Stack.goOnCode at hb
    rw [if_pos hblank] at hb
    rw [hb (by split <;> rfl)] at hmark
    cases hmark
  unfold Stack.goOnCode at hb ⊢
  rw [hl.indent, hblank]
  split
  · next hindent =>
    rw [if_pos hindent] at hb
    rw [(hl.skip _).text_eq ((l.skip_tail _).2 ▸ hb rfl)]
    exact h.forgetBlank.withLeaf (.same rfl)
  · next hindent =>
    rw [if_neg hindent] at hb
    split
    · exact h.noteBlank.withLeaf (.same rfl)
    · next hblank =>
      rw [if_neg hblank] at hb
      refine (h.closeLeaf ?_).fresh o hl hb
      rw [hleaf]
      exact .nil

/-- a line where a table is open -/
theorem goOnTable (h : Marked breaks s s') (o : MarkdownSettings) {columns : List Alignment}
    {head : List Text} {rows : List (List Text)} (hleaf : s.leaf = .table columns head rows)
    (hl : l.Alike breaks l') (hb : breaks l.stop = false) :
    Marked breaks (s.goOnTable o columns head rows l) (s'.goOnTable o columns head rows l') := by
  have hno : breaks l.stop ≠ true := by
    rw [hb]
    exact Bool.false_ne_true
  unfold Stack.goOnTable
  rw [hl.isBlank fun e => absurd e hno, hl.indent, Start.ofLine?_alike hl fun e => absurd e hno,
    hl.inner_eq hb]
  split
  · refine (h.closeLeaf ?_).fresh o hl fun _ => hb
    rw [hleaf]
    exact .nil
  · exact h.withLeaf (.same rfl)

/-- a line that goes on with the open block, or else begins another one -/
theorem readInner (h : Marked breaks s s') (o : MarkdownSettings) (hsolid : s.leaf.isSolid = false)
    (hl : l.Alike breaks l') (hb : (s.readInner o l).leaf.lines = [] → breaks l.stop = false)
    (hends : Ends breaks s.leaf.lines (s.readInner o l).leaf) :
    Marked breaks (s.readInner o l) (s'.readInner o l') := by
  obtain ⟨top, outer, b, under⟩ := s
  obtain ⟨top', outer', b', under'⟩ := s'
  have hleaf : b.Marked breaks b' := h.leaf
  cases hleaf with
  | @paragraph ls ls' hls => exact (h.withUnderlined false).goOnParagraph o rfl hls hl hb hends
  | same hp =>
    cases b with
    | paragraph ls => cases hp
    | fenced f lines | html k lines => cases hsolid
    | closed => exact h.fresh o hl hb
    | indentedCode lines blanks => exact h.goOnCode o rfl hl hb
    | table columns head rows => exact h.goOnTable o rfl hl (hb (goOnTable_lines ..))

theorem follow {fs fs' : List Frame}
    (h : fs'.map (Frame.map plain) = fs.map (Frame.map (broken breaks))) (hl : l.Alike breaks l')
    (hb : breaks l.stop = true → (Stack.follow fs l).2.2.isBlank = false) :
    (Stack.follow fs' l').1.map (Frame.map plain) =
        (Stack.follow fs l).1.map (Frame.map (broken breaks)) ∧
      (Stack.follow fs' l').2.1.map (Frame.map plain) =
        (Stack.follow fs l).2.1.map (Frame.map (broken breaks)) ∧
      (Stack.follow fs l).2.2.Alike breaks (Stack.follow fs' l').2.2 := by
  induction fs generalizing fs' l l' with
  | nil =>
    cases List.map_eq_nil_iff.1 h
    exact ⟨rfl, rfl, hl⟩
  | cons f fs ih =>
    obtain ⟨f', fs', rfl, hf, hfs⟩ := List.map_eq_cons_iff.1 h
    have hcontainer : f'.container = f.container :=
      show (f'.map plain).container = (f.map (broken breaks)).container by rw [hf]
    have hblank : breaks l.stop = true → l.isBlank = false := fun hmark =>
      eq_false_of_ne_true fun hblank => by
        rw [(follow_frames (f :: fs) l).2.2.isBlank hblank] at hb
        exact absurd (hb hmark) (by decide)
    have hcontinue := Container.continue?_alike (c := f.container) hl hblank
    rw [Stack.follow] at hb ⊢
    rw [Stack.follow, hcontainer]
    cases hopen : f.container.continue? l with
    | none =>
      rw [hopen] at hcontinue
      generalize f.container.continue? l' = r' at hcontinue ⊢
      cases hcontinue
      exact ⟨rfl, h, hl⟩
    | some t =>
      obtain ⟨c, u⟩ := t
      rw [hopen] at hcontinue hb
      have hstop : u.stop = l.stop := (Container.continue?_tail hopen).1.2
      generalize f.container.continue? l' = r' at hcontinue ⊢
      cases hcontinue with
      | @some _ t' hu =>
        obtain ⟨c', u'⟩ := t'
        obtain ⟨rfl, hu⟩ := hu
        obtain ⟨hkept, hleft, ht⟩ := ih hfs hu (hstop ▸ hb)
        refine ⟨?_, hleft, ht⟩
        dsimp only
        rw [List.map_cons, List.map_cons, hkept]
        exact congrArg (· :: _) (congrArg (fun f : Frame => { f with container := c' }) hf)

theorem withFrames (h : Marked breaks s s') {fs fs' : List Frame}
    (hfs : fs'.map (Frame.map plain) = fs.map (Frame.map (broken breaks))) :
    Marked breaks (s.withFrames fs) (s'.withFrames fs') := by
  have hfs : fs'.reverse.map (Frame.map plain) = fs.reverse.map (Frame.map (broken breaks)) := by
    rw [List.map_reverse, List.map_reverse, hfs]
  unfold Stack.withFrames
  cases hr : fs.reverse with
  | nil =>
    rw [hr] at hfs
    rw [List.map_eq_nil_iff.1 hfs]
    exact h
  | cons f fs =>
    rw [hr] at hfs
    obtain ⟨f', fs', hr', hf, hfs⟩ := List.map_eq_cons_iff.1 hfs
    rw [hr']
    refine ⟨?_, h.leaf⟩
    change Stack.mk (f'.map plain) (fs'.map (Frame.map plain)) .closed s'.underlined =
      Stack.mk (f.map (broken breaks)) (fs.map (Frame.map (broken breaks))) .closed s.underlined
    rw [hf, hfs, h.underlined]

theorem openMore (h : Marked breaks s s') (hl : l.Alike breaks l') {n m : Nat}
    (hn : l.rest.length ≤ n) (hm : l'.rest.length ≤ m)
    (hb : breaks l.stop = true → (Stack.openMore o n s l).2.isBlank = false ∧
      isRule (Stack.openMore o n s l).2 = false) :
    Marked breaks (Stack.openMore o n s l).1 (Stack.openMore o m s' l').1 ∧
      (Stack.openMore o n s l).2.Alike breaks (Stack.openMore o m s' l').2 := by
  induction n using Nat.strong_induction_on generalizing m s s' l l' with
  | _ n ih =>
    have hrule : breaks l.stop = true → isRule l = false := fun hmark =>
      eq_false_of_ne_true fun hrule => by
        have hb := (hb hmark).2
        rw [openMore_none (Container.open?_rule hrule), hrule] at hb
        cases hb
    have hopens := Container.open?_alike o false hl hrule fun c t ht hmark =>
      eq_false_of_ne_true fun hblank => by
        obtain ⟨k, -, -, hmore⟩ := openMore_some (s := s) hn ht
        have hb := (hb hmark).1
        rw [hmore, (openMore_tail o k (s.enter c) t).isBlank hblank] at hb
        cases hb
    cases hopen : Container.open? o false l with
    | none =>
      rw [hopen] at hopens
      cases hopen' : Container.open? o false l' with
      | some t =>
        rw [hopen'] at hopens
        cases hopens
      | none =>
        rw [openMore_none hopen, openMore_none hopen']
        exact ⟨h, hl⟩
    | some t =>
      rw [hopen] at hopens
      cases hopen' : Container.open? o false l' with
      | none =>
        rw [hopen'] at hopens
        cases hopens
      | some t' =>
        rw [hopen'] at hopens
        obtain ⟨c, u⟩ := t
        obtain ⟨c', u'⟩ := t'
        cases hopens with
        | some hu =>
          obtain ⟨rfl, hu⟩ := hu
          obtain ⟨k, hk, hkl, hmore⟩ := openMore_some (s := s) hn hopen
          obtain ⟨k', -, hkl', hmore'⟩ := openMore_some (s := s') hm hopen'
          have hstop : u.stop = l.stop := (Container.open?_tail hopen).1.2
          rw [hmore] at hb ⊢
          rw [hmore']
          exact ih k hk (h.enter c') hu hkl hkl' (hstop ▸ hb)

theorem addLazy (h : Marked breaks s s') (hl : l.Alike breaks l') :
    Marked breaks (s.addLazy l) (s'.addLazy l') := by
  unfold Stack.addLazy
  cases hleaf : s.leaf with
  | paragraph ls =>
    obtain ⟨ls', hleaf', hls⟩ := h.leaf.paragraph_of hleaf
    rw [hleaf']
    exact (h.withUnderlined false).withLeaf (.paragraph (.cons hl hls))
  | closed | indentedCode _ _ | fenced _ _ | html _ _ | table _ _ _ =>
    rw [h.leaf.eq (by rw [hleaf]; rfl), hleaf]
    exact (h.begin.withUnderlined false).withLeaf (.paragraph (.cons hl .nil))

/-! ### whole lines -/

theorem leave_underlined (s : Stack) (n : Nat) : (s.leave n).underlined = false := by
  induction n with
  | zero => rfl
  | succ n ih =>
    rw [Stack.leave, Stack.pop]
    split <;> exact ih

theorem withFrames_leaf (s : Stack) (fs : List Frame) : (s.withFrames fs).leaf = s.leaf := by
  unfold Stack.withFrames
  split <;> rfl

/-- a line that ends the open paragraph gets no backslash -/
theorem unmarked_of_rule {t : Line} (hl : l.Alike breaks l') (ht : t.TailOf l)
    (hb : Parts o t → breaks l.stop = false) : breaks l.stop = true → isRule t = false := by
  intro hmark
  have hclean : t.Alike breaks { t with rest := t.rest ++ Line.mark breaks t.stop } :=
    ⟨rfl, rfl, rfl, fun _ => ht.endsOpenly (hl.clean hmark)⟩
  refine eq_false_of_ne_true fun hrule => ?_
  rw [hb (.of_rule hrule (underline?_none hclean (ht.2 ▸ hmark)))] at hmark
  cases hmark

/-- a line that opens containers -/
theorem openContainers (h : Marked breaks s s') (hl : l.Alike breaks l') {interrupts : Bool}
    {c : Container} {u : Line} (hopen : Container.open? o interrupts l = some (c, u)) (n : Nat)
    (hrule : breaks l.stop = true → isRule l = false)
    (hb : (((s.leave n).enter c).freshIn o u).leaf.lines = [] → breaks l.stop = false)
    (hends : Ends breaks s.leaf.lines (((s.leave n).enter c).freshIn o u).leaf) :
    ∃ u', Container.open? o interrupts l' = some (c, u') ∧
      Marked breaks (((s.leave n).enter c).freshIn o u) (((s'.leave n).enter c).freshIn o u') := by
  obtain ⟨htail, -⟩ := Container.open?_tail hopen
  have hmore := (openMore_tail o u.rest.length ((s.leave n).enter c) u).trans htail
  have hparts : Parts o (Stack.openMore o u.rest.length ((s.leave n).enter c) u).2 →
      breaks l.stop = false := fun hp => hb (hp.fresh_lines _)
  have hopens := Container.open?_alike o interrupts hl hrule fun d v hv hmark =>
    eq_false_of_ne_true fun hblank => by
      cases hopen.symm.trans hv
      rw [hparts (.inl ((openMore_tail _ _ _ _).isBlank hblank))] at hmark
      cases hmark
  rw [hopen] at hopens
  generalize Container.open? o interrupts l' = r at hopens ⊢
  cases hopens with
  | @some _ t' hu =>
    obtain ⟨c', u'⟩ := t'
    obtain ⟨rfl, hu⟩ := hu
    have hclosed := h.leave (hends.closes (fresh_gains o _ _).2.1) n
    obtain ⟨hv, hline⟩ := (hclosed.enter c').openMore (o := o) hu (Nat.le_refl _) (Nat.le_refl _)
      fun hmark => by
        rw [htail.2] at hmark
        refine ⟨eq_false_of_ne_true fun hblank => ?_, unmarked_of_rule hl hmore hparts hmark⟩
        rw [hparts (.inl hblank)] at hmark
        cases hmark
    exact ⟨u', rfl, hv.fresh o hline (by rw [hmore.2]; exact hb)⟩

/-- a line that does not go on with all containers and opens none -/
theorem goOnOutside (h : Marked breaks s s') (hl : l.Alike breaks l') (n : Nat)
    (hblank : breaks l.stop = true → l.isBlank = false)
    (hb : (s.goOnOutside o n l).leaf.lines = [] → breaks l.stop = false)
    (hends : Ends breaks s.leaf.lines (s.goOnOutside o n l).leaf) :
    Marked breaks (s.goOnOutside o n l) (s'.goOnOutside o n l') := by
  unfold Stack.goOnOutside at hb hends ⊢
  have hnone : breaks l.stop = true → Start.ofLine? o true l = none := by
    intro hmark
    by_contra hsome
    have hlazy : ¬ s.isLazy o l = true := by
      intro hlazy
      have hnone := (Bool.and_eq_true_iff.1 (Bool.and_eq_true_iff.1 hlazy).1).2
      exact hsome (Option.isNone_iff_eq_none.1 hnone)
    rw [if_neg hlazy] at hb
    rw [hb ?_] at hmark
    · cases hmark
    · rw [fresh_lines, if_neg]
      intro hbegins
      refine hsome ((beginsParagraph_iff.1 hbegins).2.2 ?_)
      rw [leave_underlined, Bool.false_and]
  have hlazy : s'.isLazy o l' = s.isLazy o l := by
    unfold isLazy
    rw [hl.isBlank hblank, Start.ofLine?_alike hl hnone, h.leaf.isParagraph, h.underlined, hl.indent]
  rw [hlazy]
  by_cases hlazy : s.isLazy o l = true
  · rw [if_pos hlazy, if_pos hlazy]
    exact h.addLazy hl
  · rw [if_neg hlazy] at hb hends
    rw [if_neg hlazy, if_neg hlazy]
    exact (h.leave (hends.closes (fresh_gains o _ _).2.1) n).fresh o hl hb

/-- a line after what goes on with the open containers -/
theorem readRest (h : Marked breaks s s') (hl : l.Alike breaks l') (n : Nat)
    (hblank : breaks l.stop = true → l.isBlank = false)
    (hrule : breaks l.stop = true → isRule l = false)
    (hb : (s.readRest o n l).leaf.lines = [] → breaks l.stop = false)
    (hends : Ends breaks s.leaf.lines (s.readRest o n l).leaf) :
    Marked breaks (s.readRest o n l) (s'.readRest o n l') := by
  unfold Stack.readRest at hb hends ⊢
  rw [h.leaf.isSolid, h.leaf.isParagraph]
  by_cases hsolid : (n == 0 && s.leaf.isSolid) = true
  · rw [if_pos hsolid] at hb
    rw [if_pos hsolid, if_pos hsolid]
    have hsolid := (Bool.and_eq_true_iff.1 hsolid).2
    exact h.goOn hsolid hl (hb (goOn_lines hsolid l))
  rw [if_neg hsolid] at hb hends
  rw [if_neg hsolid, if_neg hsolid]
  cases hopen : Container.open? o (n == 0 && s.leaf.isParagraph) l with
  | some t =>
    rw [hopen] at hb hends
    obtain ⟨u', hopen', hfresh⟩ := h.openContainers hl hopen n hrule hb hends
    rw [hopen']
    exact hfresh
  | none =>
    have hopens := Container.open?_alike o (n == 0 && s.leaf.isParagraph) hl hrule
      fun c t ht _ => by
        rw [hopen] at ht
        cases ht
    rw [hopen] at hb hends hopens
    generalize Container.open? o (n == 0 && s.leaf.isParagraph) l' = r at hopens ⊢
    cases hopens
    dsimp only at hb hends ⊢
    by_cases hwhole : (n == 0) = true
    · rw [if_pos hwhole] at hb hends
      rw [if_pos hwhole, if_pos hwhole]
      rw [hwhole, Bool.true_and] at hsolid
      exact h.readInner o (eq_false_of_ne_true hsolid) hl hb hends
    · rw [if_neg hwhole] at hb hends
      rw [if_neg hwhole, if_neg hwhole]
      exact h.goOnOutside hl n hblank hb hends

/-- **One more line keeps two states alike**, if it is in the open paragraph wherever it gets a
backslash, and a paragraph that it ends is closed alike. -/
theorem readLine (h : Marked breaks s s') (o : MarkdownSettings) (hl : l.Alike breaks l')
    (hb : (s.readLine o l).leaf.lines = [] → breaks l.stop = false)
    (hends : Ends breaks s.leaf.lines (s.readLine o l).leaf) :
    Marked breaks (s.readLine o l) (s'.readLine o l') := by
  obtain ⟨kept, left, t, hfollow⟩ : ∃ kept left t,
      Stack.follow (s.outer.reverse ++ [s.top]) l = (kept, left, t) := ⟨_, _, _, rfl⟩
  obtain ⟨kept', left', t', hfollow'⟩ : ∃ kept left t,
      Stack.follow (s'.outer.reverse ++ [s'.top]) l' = (kept, left, t) := ⟨_, _, _, rfl⟩
  rw [readLine_eq hfollow] at hb hends ⊢
  rw [readLine_eq hfollow']
  have htail : t.TailOf l := by
    have htail := (follow_frames (s.outer.reverse ++ [s.top]) l).2.2
    rwa [hfollow] at htail
  have hparts : Parts o t → (∀ interrupts, Container.open? o interrupts t = none) →
      breaks l.stop = false := fun hp hopen => hb (hp.readRest_lines hopen _ _)
  have hblank : breaks l.stop = true → t.isBlank = false := fun hmark =>
    eq_false_of_ne_true fun hblank => by
      rw [hparts (.inl hblank) fun _ => Container.open?_blank hblank] at hmark
      cases hmark
  have hrule : breaks l.stop = true → isRule t = false := fun hmark =>
    eq_false_of_ne_true fun hrule => by
      have hno := unmarked_of_rule (o := o) hl htail
        (fun hp => hparts hp fun _ => Container.open?_rule hrule) hmark
      rw [hrule] at hno
      cases hno
  have hframes : (s'.outer.reverse ++ [s'.top]).map (Frame.map plain) =
      (s.outer.reverse ++ [s.top]).map (Frame.map (broken breaks)) := by
    have htop : s'.top.map plain = s.top.map (broken breaks) := congrArg Stack.top h.shell
    have houter : s'.outer.map (Frame.map plain) = s.outer.map (Frame.map (broken breaks)) :=
      congrArg Stack.outer h.shell
    simp only [List.map_append, List.map_reverse, List.map_singleton, htop, houter]
  obtain ⟨hkept, hleft, ht⟩ := follow hframes hl (by rw [hfollow]; exact hblank)
  rw [hfollow, hfollow'] at hkept hleft ht
  have hr : Marked breaks (s.withFrames (kept ++ left)) (s'.withFrames (kept' ++ left')) :=
    h.withFrames (by rw [List.map_append, List.map_append, hkept, hleft])
  have hlength : left'.length = left.length := by simpa using congrArg List.length hleft
  rw [hlength]
  rw [← htail.2] at hb hblank hrule
  exact hr.readRest ht left.length hblank hrule hb (by rw [withFrames_leaf]; exact hends)

end Marked

end Stack

end MarkdownModule.Markdown

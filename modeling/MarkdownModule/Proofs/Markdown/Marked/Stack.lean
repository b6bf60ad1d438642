import MarkdownModule.Proofs.Markdown.Blocks
import MarkdownModule.Proofs.Markdown.Marked.Paragraph
import MarkdownModule.Proofs.Markdown.Marked.Start

/-!
# Documents with backslashes, line by line

The state after lines with backslashes is the state after the lines without, but for the backslashes
in its texts and in its open paragraph.

* `Stack.Marked`            two such states
* `Stack.Marked.readLine`   one more line keeps them so
-/

namespace MarkdownModule.Markdown

/-! ## blocks with other texts -/

namespace Block

variable {α β : Type} (f : α → β)

theorem mapIn_append (as bs : List (Block α)) : mapIn f (as ++ bs) = mapIn f as ++ mapIn f bs := by
  induction as with
  | nil => rfl
  | cons a as ih => rw [List.cons_append, mapIn, ih, mapIn, List.cons_append]

theorem mapIn_reverse (bs : List (Block α)) : mapIn f bs.reverse = (mapIn f bs).reverse := by
  induction bs with
  | nil => rfl
  | cons b bs ih =>
    rw [List.reverse_cons, mapIn_append, ih, mapIn, mapIn, mapIn, List.reverse_cons]

theorem mapInItems_append (is js : List (List (Block α))) :
    mapInItems f (is ++ js) = mapInItems f is ++ mapInItems f js := by
  induction is with
  | nil => rfl
  | cons i is ih => rw [List.cons_append, mapInItems, ih, mapInItems, List.cons_append]

theorem mapIn_definitions (ds : List Definition) :
    mapIn f (ds.map .definition) = ds.map .definition := by
  induction ds with
  | nil => rfl
  | cons d ds ih => rw [List.map_cons, mapIn, ih, map, List.map_cons]

end Block

/-! ## containers with other texts -/

namespace Frame

variable (g : Content → Content)

def map (f : Frame) : Frame := { f with blocks := Block.mapIn g f.blocks }

theorem addItem_map (marker : Char) (number : Nat) (loose : Bool) (item bs : List (Block Content)) :
    Block.mapIn g (addItem marker number loose item bs) =
      addItem marker number loose (Block.mapIn g item) (Block.mapIn g bs) := by
  cases bs with
  | nil => rfl
  | cons b bs =>
    cases b with
    | list m start l items =>
      rw [Block.mapIn, Block.map, addItem, addItem]
      split
      · rw [Block.mapIn, Block.map, Block.mapInItems_append]
        rfl
      · rfl
    | thematicBreak | heading _ _ | paragraph _ | code _ _ | formula _ | html _ | quote _
    | table _ _ _ | definition _ | footnote _ _ => rfl

theorem receive_map (f inner : Frame) :
    (f.receive inner).map g = (f.map g).receive (inner.map g) := by
  have hcontent : Block.mapIn g inner.blocks.reverse = (Block.mapIn g inner.blocks).reverse :=
    Block.mapIn_reverse g inner.blocks
  have hcontainer : (inner.map g).container = inner.container := rfl
  unfold receive
  rw [hcontainer]
  cases inner.container with
  | document => rfl
  | quote =>
    simp only [map, Block.mapIn, Block.map, hcontent]
  | item marker number width empty =>
    simp only [map, addItem_map, hcontent]
  | footnote label =>
    simp only [map, Block.mapIn, Block.map, hcontent]

theorem beginContainer_map (f : Frame) (c : Container) :
    (f.beginContainer c).map g = (f.map g).beginContainer c := by
  cases c with
  | document | quote | footnote _ => rfl
  | item marker number width empty =>
    unfold beginContainer
    cases hblocks : f.blocks with
    | nil => simp only [map, hblocks, Block.mapIn, begin]
    | cons b bs =>
      cases b with
      | list m start loose items =>
        simp only [map, hblocks, Block.mapIn, Block.map]
        split
        · rfl
        · simp only [begin, hblocks, Block.mapIn, Block.map]
      | thematicBreak | heading _ _ | paragraph _ | code _ _ | formula _ | html _ | quote _
      | table _ _ _ | definition _ | footnote _ _ =>
        simp only [map, hblocks, Block.mapIn, Block.map, begin]

end Frame

namespace Stack

variable (g : Content → Content)

def shell (s : Stack) : Stack where
  top := s.top.map g
  outer := s.outer.map (·.map g)
  underlined := s.underlined

theorem shell_add (s : Stack) (bs : List (Block Content)) :
    (s.add bs).shell g = (s.shell g).add (Block.mapIn g bs) := by
  simp only [shell, add, Frame.map, Block.mapIn_append, Block.mapIn_reverse]

theorem shell_enter (s : Stack) (c : Container) : (s.enter c).shell g = (s.shell g).enter c := by
  simp only [shell, enter, List.map_cons, Frame.beginContainer_map]
  rfl

theorem shell_pop (s : Stack) : s.pop.shell g = (s.shell g).pop := by
  unfold pop
  cases houter : s.outer with
  | nil => simp only [shell, houter, List.map_nil]
  | cons f fs => simp only [shell, houter, List.map_cons, Frame.receive_map]

theorem shell_noteBlank (s : Stack) : s.noteBlank.shell g = (s.shell g).noteBlank := by
  have hcontainer : (s.shell g).top.container = s.top.container := rfl
  unfold noteBlank
  rw [hcontainer]
  split <;> rfl

theorem shell_contained (s : Stack) : (s.shell g).contained = s.contained := by
  simp only [contained, shell, List.isEmpty_map]

end Stack

/-! ## open blocks -/

open Content (plain broken)

section
variable {breaks : Nat → Bool} {l l' : Line}

/-- a content on one line has nothing to break -/
theorem broken_line (breaks : Nat → Bool) (s : Text) : broken breaks { text := s } = { text := s } :=
  broken_of_unmarked fun _ h => absurd h List.not_mem_nil

namespace Leaf

/-- an open block and the same block with backslashes; they stand at the ends of the lines of a
paragraph, and nowhere else -/
inductive Marked (breaks : Nat → Bool) : Leaf → Leaf → Prop
  | paragraph {ls ls' : List Line} (h : List.Forall₂ (Line.Alike breaks) ls ls') :
    Marked breaks (.paragraph ls) (.paragraph ls')
  | same {l : Leaf} (h : l.isParagraph = false) : Marked breaks l l

variable {b b' : Leaf}

theorem Marked.eq (h : Marked breaks b b') (hb : b.isParagraph = false) : b' = b := by
  cases h with
  | paragraph h => cases hb
  | same h => rfl

theorem Marked.paragraph_of (h : Marked breaks b b') {ls : List Line} (hb : b = .paragraph ls) :
    ∃ ls', b' = .paragraph ls' ∧ List.Forall₂ (Line.Alike breaks) ls ls' := by
  cases h with
  | paragraph h =>
    cases hb
    exact ⟨_, rfl, h⟩
  | same h =>
    rw [hb] at h
    cases h

theorem Marked.isParagraph (h : Marked breaks b b') : b'.isParagraph = b.isParagraph := by
  cases h <;> rfl

theorem Marked.isSolid (h : Marked breaks b b') : b'.isSolid = b.isSolid := by
  cases h <;> rfl

theorem isEmpty_of_broken {c c' : Content} (h : c'.plain = c.broken breaks) :
    c'.text.isEmpty = c.text.isEmpty := by
  have htext : c'.text = breakEnds breaks c.lineEnds.reverse c.text := congrArg Content.text h
  rw [htext, Bool.eq_iff_iff, List.isEmpty_iff, List.isEmpty_iff]
  exact ⟨fun e => by_contra fun hne => breakEnds_ne_nil hne e, fun e => by rw [e]; rfl⟩

theorem Marked.paragraphBlocks {ls ls' : List Line} (h : List.Forall₂ (Line.Alike breaks) ls ls')
    (hclose : Closes breaks ls) : Block.mapIn plain (paragraphBlocks ls') =
      Block.mapIn (broken breaks) (paragraphBlocks ls) := by
  obtain ⟨hds, hrest⟩ := hclose ls' h
  have hempty := isEmpty_of_broken hrest
  unfold Leaf.paragraphBlocks
  dsimp only
  rw [Block.mapIn_append, Block.mapIn_append, Block.mapIn_definitions, Block.mapIn_definitions, hds,
    hempty]
  split
  · rfl
  · simp only [Block.mapIn, Block.map, hrest]

theorem mapIn_cells (g : Content → Content) (hg : ∀ s : Text, g { text := s } = { text := s })
    (columns : List Alignment) (head : List Text) (rows : List (List Text)) :
    Block.mapIn g [.table columns (head.map cell) (rows.map (·.map cell))] =
      [.table columns (head.map cell) (rows.map (·.map cell))] := by
  have hcell : g ∘ cell = cell := funext hg
  simp only [Block.mapIn, Block.map, List.map_map, hcell]
  congr 2
  exact List.map_congr_left fun r _ => by simp [hcell]

theorem Marked.blocks (h : Marked breaks b b') (hclose : Closes breaks b.lines) (contained : Bool) :
    Block.mapIn plain (b'.blocks contained) = Block.mapIn (broken breaks) (b.blocks contained) := by
  cases h with
  | paragraph h => exact Marked.paragraphBlocks h hclose
  | same h =>
    cases b with
    | paragraph lines => cases h
    | closed | indentedCode _ _ | html _ _ => rfl
    | fenced f lines =>
      simp only [Leaf.blocks, Fence.block, Block.mapIn]
      split <;> rfl
    | table columns head rows =>
      rw [Leaf.blocks, mapIn_cells plain fun _ => rfl, mapIn_cells _ (broken_line breaks)]

end Leaf

/-! ## the state -/

namespace Stack

variable {s s' : Stack}

structure Marked (breaks : Nat → Bool) (s s' : Stack) : Prop where
  shell : s'.shell plain = s.shell (broken breaks)
  leaf : s.leaf.Marked breaks s'.leaf

namespace Marked

theorem withLeaf (h : Marked breaks s s') {b b' : Leaf} (hb : b.Marked breaks b') :
    Marked breaks { s with leaf := b } { s' with leaf := b' } := ⟨h.shell, hb⟩

theorem closed (h : Marked breaks s s') :
    Marked breaks { s with leaf := .closed } { s' with leaf := .closed } := h.withLeaf (.same rfl)

theorem withUnderlined (h : Marked breaks s s') (b : Bool) :
    Marked breaks { s with underlined := b } { s' with underlined := b } :=
  ⟨congrArg (fun t : Stack => { t with underlined := b }) h.shell, h.leaf⟩

theorem underlined (h : Marked breaks s s') : s'.underlined = s.underlined :=
  show (s'.shell plain).underlined = (s.shell (broken breaks)).underlined by rw [h.shell]

theorem contained (h : Marked breaks s s') : s'.contained = s.contained := by
  rw [← shell_contained plain s', h.shell, shell_contained]

theorem begin (h : Marked breaks s s') : Marked breaks s.begin s'.begin :=
  ⟨congrArg Stack.begin h.shell, h.leaf⟩

theorem forgetBlank (h : Marked breaks s s') : Marked breaks s.forgetBlank s'.forgetBlank :=
  ⟨congrArg Stack.forgetBlank h.shell, h.leaf⟩

theorem add (h : Marked breaks s s') {bs bs' : List (Block Content)}
    (hbs : Block.mapIn plain bs' = Block.mapIn (broken breaks) bs) :
    Marked breaks (s.add bs) (s'.add bs') :=
  ⟨by rw [shell_add, shell_add, h.shell, hbs], h.leaf⟩

theorem noteBlank (h : Marked breaks s s') : Marked breaks s.noteBlank s'.noteBlank :=
  ⟨by rw [shell_noteBlank, shell_noteBlank, h.shell],
    by rw [s.noteBlank_gains.2.1, s'.noteBlank_gains.2.1]; exact h.leaf⟩

theorem enter (h : Marked breaks s s') (c : Container) : Marked breaks (s.enter c) (s'.enter c) :=
  ⟨by rw [shell_enter, shell_enter, h.shell], h.leaf⟩

theorem pop (h : Marked breaks s s') : Marked breaks s.pop s'.pop := by
  have hleaf : ∀ s : Stack, s.pop.leaf = s.leaf := by
    intro s
    unfold Stack.pop
    split <;> rfl
  exact ⟨by rw [shell_pop, shell_pop, h.shell], by rw [hleaf, hleaf]; exact h.leaf⟩

theorem closeLeaf (h : Marked breaks s s') (hclose : Closes breaks s.leaf.lines) :
    Marked breaks s.closeLeaf s'.closeLeaf := by
  have hadd : Marked breaks (s.add (s.leaf.blocks s.contained))
      (s'.add (s'.leaf.blocks s'.contained)) :=
    h.add (by rw [h.contained]; exact h.leaf.blocks hclose s.contained)
  exact (hadd.withUnderlined false).closed

theorem leave (h : Marked breaks s s') (hclose : Closes breaks s.leaf.lines) (n : Nat) :
    Marked breaks (s.leave n) (s'.leave n) := by
  induction n with
  | zero => exact h.closeLeaf hclose
  | succ n ih => exact ih.pop

end Marked

/-- what becomes of an open paragraph: it goes on, or all but its last line is closed and a table
begins with that, or it is closed -/
inductive Ends (breaks : Nat → Bool) (lines : List Line) (b : Leaf) : Prop
  | goOn {t : Line} (leaf : b = .paragraph (t :: lines))
  | table (table : b.isTable = true) (first : ∀ l ∈ lines.head?, breaks l.stop = false)
      (closes : Closes breaks (lines.drop 1))
  | close (table : b.isTable = false) (closes : Closes breaks lines)

/-- no block is open before the line at which it begins -/
theorem Ends.closes {lines : List Line} (h : Ends breaks lines s.leaf) (hbegins : Begins l s) :
    Closes breaks lines := by
  cases h with
  | close table closes => exact closes
  | table table => exact absurd table (by rw [hbegins.1]; exact Bool.false_ne_true)
  | goOn leaf =>
    suffices hnil : lines = [] by
      rw [hnil]
      exact .nil
    have hlines := hbegins.2
    rw [leaf] at hlines
    rcases hlines with hlines | ⟨u, -, hlines⟩
    · cases hlines
    · exact (List.cons.inj hlines).2

/-! ### lines that begin a block -/

def beginsParagraph (o : MarkdownSettings) (s : Stack) (l : Line) : Bool :=
  !l.isBlank && l.indent ≤ mostIndent
    && ((s.underlined && (underline? l).isSome) || (Start.ofLine? o true l).isNone)

variable {o : MarkdownSettings}

theorem beginsParagraph_iff : s.beginsParagraph o l = true ↔ l.isBlank = false ∧
    l.indent ≤ mostIndent ∧
    ((s.underlined && (underline? l).isSome) = false → Start.ofLine? o true l = none) := by
  unfold beginsParagraph
  cases s.underlined && (underline? l).isSome with
  | true => simp
  | false => simp [and_assoc]

theorem fresh_lines (o : MarkdownSettings) (s : Stack) (l : Line) :
    (s.fresh o l).leaf.lines = if s.beginsParagraph o l then [l] else [] := by
  have hbegins := beginsParagraph_iff (s := s) (o := o) (l := l)
  unfold fresh
  dsimp only
  split
  · next hblank =>
    rw [if_neg fun h => by rw [(hbegins.1 h).1] at hblank; cases hblank]
    exact congrArg Leaf.lines (noteBlank_gains _).2.1
  · next hblank =>
    have hblank := eq_false_of_ne_true hblank
    split
    · next hindent =>
      rw [if_neg fun h => Nat.not_lt.2 (hbegins.1 h).2.1 hindent]
      rfl
    · next hindent =>
      have hindent := Nat.not_lt.1 hindent
      split
      · next hunder =>
        rw [if_pos (hbegins.2 ⟨hblank, hindent, fun h => by rw [hunder] at h; cases h⟩)]
        rfl
      · next hunder =>
        have hunder := eq_false_of_ne_true hunder
        split
        · next b hof =>
          rw [if_neg fun h => by rw [(hbegins.1 h).2.2 hunder] at hof; cases hof]
          exact ((start_gains { s with leaf := .closed, underlined := false } l b).2.1 rfl).2
        · next hnone =>
          rw [if_pos (hbegins.2 ⟨hblank, hindent, fun _ => hnone⟩)]
          rfl

namespace Marked

theorem start (h : Marked breaks s s') (hl : l.Alike breaks l') (hb : breaks l.stop = false)
    (b : Start) : Marked breaks (s.start l b) (s'.start l' b) := by
  cases b with
  | fence f => exact h.begin.withLeaf (.same rfl)
  | html k =>
    have hk : k.endsAtOnce l' = k.endsAtOnce l := by
      rw [hl.eq hb]
      rfl
    have hopen := h.begin.withLeaf (b := .html k [l.text]) (.same rfl)
    unfold Stack.start
    dsimp only
    rw [hk, hl.text_eq hb]
    split
    · exact hopen.closeLeaf .nil
    · exact hopen
  | heading level text =>
    refine h.begin.add ?_
    simp only [Block.mapIn, Block.map, broken_line, plain]
  | rule => exact h.begin.add rfl

/-- a line where no block is open; it gets no backslash unless it begins a paragraph -/
theorem fresh (h : Marked breaks s s') (o : MarkdownSettings) (hl : l.Alike breaks l')
    (hb : (s.fresh o l).leaf.lines = [] → breaks l.stop = false) :
    Marked breaks (s.fresh o l) (s'.fresh o l') := by
  have hs := (h.withUnderlined false).closed
  have hparagraph : Marked breaks { s.begin with leaf := .paragraph [l], underlined := false }
      { s'.begin with leaf := .paragraph [l'], underlined := false } :=
    (h.begin.withUnderlined false).withLeaf (.paragraph (.cons hl .nil))
  have hbegins : breaks l.stop = true → l.isBlank = false ∧ l.indent ≤ mostIndent ∧
      ((s.underlined && (underline? l).isSome) = false → Start.ofLine? o true l = none) := by
    intro hmark
    refine beginsParagraph_iff.1 ?_
    by_contra hno
    rw [hb (by rw [fresh_lines, if_neg hno])] at hmark
    cases hmark
  unfold Stack.fresh
  dsimp only
  rw [h.underlined, hl.isBlank fun hmark => (hbegins hmark).1, hl.indent, underline?_alike hl]
  split
  · exact hs.noteBlank
  · split
    · next hindent =>
      have hunmarked : breaks l.stop = false :=
        eq_false_of_ne_true fun hmark => Nat.not_lt.2 (hbegins hmark).2.1 hindent
      rw [(hl.skip _).text_eq ((l.skip_tail _).2 ▸ hunmarked)]
      exact hs.begin.withLeaf (.same rfl)
    · split
      · exact hparagraph
      · next hunder =>
        have hunder := eq_false_of_ne_true hunder
        rw [Start.ofLine?_alike hl fun hmark => (hbegins hmark).2.2 hunder]
        cases hof : Start.ofLine? o true l with
        | none => exact hparagraph
        | some b =>
          refine hs.start hl (eq_false_of_ne_true fun hmark => ?_) b
          rw [(hbegins hmark).2.2 hunder] at hof
          cases hof

end Marked

namespace Marked

/-! ### lines that go on with a block -/

/-- a line of a block in which no container begins -/
theorem goOn (h : Marked breaks s s') (hsolid : s.leaf.isSolid = true) (hl : l.Alike breaks l')
    (hb : breaks l.stop = false) : Marked breaks (s.goOn l) (s'.goOn l') := by
  have hline := hl.eq hb
  have hblank : l'.isBlank = l.isBlank := hl.isBlank fun hmark => by rw [hb] at hmark; cases hmark
  cases hleaf : s.leaf with
  | closed | paragraph _ | indentedCode _ _ | table _ _ _ =>
    rw [hleaf] at hsolid
    cases hsolid
  | fenced f lines =>
    have hleaf' : s'.leaf = .fenced f lines := by rw [h.leaf.eq (by rw [hleaf]; rfl), hleaf]
    have hclosed : f.isClosed l' = f.isClosed l := by
      rw [hline]
      rfl
    have htext : f.lineText l' = f.lineText l :=
      (hl.skip _).text_eq ((l.skip_tail _).2 ▸ hb)
    unfold Stack.goOn
    rw [hleaf, hleaf']
    dsimp only
    rw [hclosed, htext]
    split
    · refine (h.add ?_).closed
      simp only [Fence.block, Block.mapIn]
      split <;> rfl
    · exact h.withLeaf (.same rfl)
  | html k lines =>
    have hleaf' : s'.leaf = .html k lines := by rw [h.leaf.eq (by rw [hleaf]; rfl), hleaf]
    have hopen := h.withLeaf (b := .html k (l.text :: lines)) (.same rfl)
    unfold Stack.goOn
    rw [hleaf, hleaf']
    dsimp only
    rw [hblank, hl.text_eq hb]
    split
    · refine (h.closeLeaf ?_).noteBlank
      rw [hleaf]
      exact .nil
    · split
      · exact hopen.closeLeaf .nil
      · exact hopen

theorem underline (h : Marked breaks s s') {ls ls' : List Line}
    (hls : List.Forall₂ (Line.Alike breaks) ls ls') (hclose : Closes breaks ls)
    (hl : l.Alike breaks l') (level : Nat) :
    Marked breaks (s.underline ls l level) (s'.underline ls' l' level) := by
  obtain ⟨hds, hrest⟩ := hclose ls' hls
  have hadd : Marked breaks (s.add ((Content.ofLines ls).cutDefinitions.1.map .definition))
      (s'.add ((Content.ofLines ls').cutDefinitions.1.map .definition)) :=
    h.add (by rw [hds, Block.mapIn_definitions, Block.mapIn_definitions])
  have hempty := Leaf.isEmpty_of_broken hrest
  unfold Stack.underline
  dsimp only
  rw [hempty]
  split
  · exact (hadd.withUnderlined true).withLeaf (.paragraph (.cons hl .nil))
  · refine ((hadd.add ?_).withUnderlined true).closed
    simp only [Block.mapIn, Block.map, hrest]

/-- the table that two lines open, neither of which gets a backslash then -/
theorem opensTable_alike {ls ls' : List Line} (hls : List.Forall₂ (Line.Alike breaks) ls ls')
    (hl : l.Alike breaks l')
    (h : ∀ t, (if o.table then ls.head?.bind (Table.open? · l) else none) = some t →
      breaks l.stop = false ∧ ∀ m ∈ ls.head?, breaks m.stop = false) :
    (if o.table then ls'.head?.bind (Table.open? · l') else none) =
      if o.table then ls.head?.bind (Table.open? · l) else none := by
  split
  · next ho =>
    cases hls with
    | nil => rfl
    | @cons m m' ls ls' hm hls =>
      have hnone : breaks l.stop = true ∨ breaks m.stop = true → Table.open? m l = none := by
        intro hmark
        rw [Option.eq_none_iff_forall_ne_some]
        intro t ht
        obtain ⟨hunmarked, hfirst⟩ := h t (by rw [if_pos ho]; exact ht)
        rw [hunmarked, hfirst m rfl] at hmark
        simp at hmark
      exact Table.open?_alike hm hl (fun hmark => hnone (.inl hmark)) fun hmark => hnone (.inr hmark)
  · rfl

/-- a line where a paragraph is open -/
theorem goOnParagraph (h : Marked breaks s s') (o : MarkdownSettings) {ls ls' : List Line}
    (hleaf : s.leaf = .paragraph ls) (hls : List.Forall₂ (Line.Alike breaks) ls ls')
    (hl : l.Alike breaks l')
    (hb : (s.goOnParagraph o ls l).leaf.lines = [] → breaks l.stop = false)
    (hends : Ends breaks ls (s.goOnParagraph o ls l).leaf) :
    Marked breaks (s.goOnParagraph o ls l) (s'.goOnParagraph o ls' l') := by
  have hclosed : Closes breaks ls → Marked breaks s.closeLeaf s'.closeLeaf := fun hclose =>
    h.closeLeaf (by rw [hleaf]; exact hclose)
  unfold Stack.goOnParagraph at hb hends ⊢
  by_cases hblank : l.isBlank = true
  · rw [if_pos hblank] at hb hends
    have hnote := s.closeLeaf.noteBlank_gains.2.1
    have hunmarked := hb (congrArg Leaf.lines hnote)
    rw [if_pos hblank, if_pos (by rw [hl.eq hunmarked]; exact hblank)]
    exact (hclosed (hends.closes (l := l) (.of_closed hnote))).noteBlank
  · have hblank' : ¬ l'.isBlank = true := by
      rw [hl.isBlank fun _ => eq_false_of_ne_true hblank]
      exact hblank
    rw [if_neg hblank] at hb hends ⊢
    rw [if_neg hblank']
    have htable : ∀ t, (if o.table then ls.head?.bind (Table.open? · l) else none) = some t →
        breaks l.stop = false ∧ ∀ m ∈ ls.head?, breaks m.stop = false := by
      intro t ht
      rw [ht] at hb hends
      refine ⟨hb rfl, ?_⟩
      cases hends with
      | table _ first => exact first
      | goOn leaf => cases leaf
      | close table => cases table
    have hsame := opensTable_alike (o := o) hls hl htable
    rw [hsame]
    cases hopen : (if o.table then ls.head?.bind (Table.open? · l) else none) with
    | some t =>
      rw [hopen] at hends
      refine (h.add (Leaf.Marked.paragraphBlocks (List.forall₂_drop 1 hls) ?_)).withLeaf (.same rfl)
      cases hends with
      | table _ _ closes => exact closes
      | goOn leaf => cases leaf
      | close table => cases table
    | none =>
      rw [hopen] at hb hends
      dsimp only at hb hends ⊢
      rw [underline?_alike hl]
      cases hunder : underline? l with
      | some level =>
        rw [hunder] at hends
        refine h.underline hls (hends.closes (l := l) ?_) hl level
        unfold Stack.underline
        dsimp only
        split
        · exact ⟨rfl, .inr ⟨l, .refl l, rfl⟩⟩
        · exact .of_closed rfl
      | none =>
        rw [hunder] at hb hends
        dsimp only at hb hends ⊢
        have hbegin : ∀ b, (s.closeLeaf.start l b).leaf.isTable = false ∧
            (s.closeLeaf.start l b).leaf.lines = [] := fun b =>
          (start_gains s.closeLeaf l b).2.1 rfl
        have hnone : breaks l.stop = true → Start.ofLine? o false l = none := by
          intro hmark
          rw [Option.eq_none_iff_forall_ne_some]
          intro b hof
          rw [hof] at hb
          rw [hb (hbegin b).2] at hmark
          cases hmark
        rw [Start.ofLine?_alike hl hnone]
        cases hof : Start.ofLine? o false l with
        | some b =>
          rw [hof] at hb hends
          exact (hclosed (hends.closes (l := l) ((hbegin b).imp_right .inl))).start hl
            (hb (hbegin b).2) b
        | none => exact h.withLeaf (.paragraph (.cons hl hls))

end Marked

end Stack

end

end MarkdownModule.Markdown

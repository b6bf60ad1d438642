import MarkdownModule.Proofs.Markdown.Places
import MarkdownModule.Proofs.Markdown.Return.Block

/-!
# The blocks that a clean document is read as

A document is read line by line.  Each step keeps the texts of the closed blocks and the lines of the
open one clean, since what it puts to them is a part of the line.

* `Stack.Sound`            the state of the reader
* `Stack.Sound.readLine`   one more line that is clean
* `readDocument_sound`     the blocks of a document
-/

namespace MarkdownModule.Markdown

variable {b : Prop}

/-! ## containers -/

theorem SoundBlocks.addItem {marker : Char} {number : Nat} {loose : Bool}
    {item bs : List (Block Content)} (hitem : SoundBlocks b item) (hbs : SoundBlocks b bs) :
    SoundBlocks b (Frame.addItem marker number loose item bs) := by
  have hlone : (Block.list marker number loose [item]).Sound b (Content.Sound b) :=
    .list (List.forall_mem_singleton.2 hitem)
  unfold Frame.addItem
  split
  · next m start l items bs =>
    obtain ⟨hlist, hrest⟩ := List.forall_mem_cons.1 hbs
    split
    · cases hlist with
      | list hitems =>
        exact .cons (.list (List.forall_mem_append.2 ⟨hitems, List.forall_mem_singleton.2 hitem⟩)) hrest
    · exact .cons hlone hbs
  · exact .cons hlone hbs

section
variable {f inner : Frame} (h : SoundBlocks b f.blocks)
include h

theorem Frame.sound_receive (hinner : SoundBlocks b inner.blocks) :
    SoundBlocks b (f.receive inner).blocks := by
  unfold receive
  dsimp only
  split
  · exact h
  · exact .cons (.quote hinner.reverse) h
  · exact hinner.reverse.addItem h
  · exact .cons (.footnote hinner.reverse) h

theorem Frame.sound_beginContainer (c : Container) : SoundBlocks b (f.beginContainer c).blocks := by
  unfold beginContainer
  split
  · next marker _ _ _ m start loose items bs hblocks =>
    split
    · rw [hblocks] at h
      obtain ⟨hlist, hrest⟩ := List.forall_mem_cons.1 h
      cases hlist with
      | list hitems => exact .cons (.list hitems) hrest
    · exact h
  · exact h

end

namespace Stack

/-! ## the state of the reader -/

structure Sound (b : Prop) (s : Stack) : Prop where
  top : SoundBlocks b s.top.blocks
  outer : ∀ f ∈ s.outer, SoundBlocks b f.blocks
  leaf : s.leaf.Sound b

namespace Sound

variable {o : MarkdownSettings} {s : Stack} {l : Line}

theorem withLeaf (h : s.Sound b) {leaf : Leaf} (hleaf : leaf.Sound b) :
    Sound b { s with leaf } :=
  ⟨h.top, h.outer, hleaf⟩

theorem withUnderlined (h : s.Sound b) (u : Bool) : Sound b { s with underlined := u } :=
  ⟨h.top, h.outer, h.leaf⟩

theorem add (h : s.Sound b) {bs : List (Block Content)} (hbs : SoundBlocks b bs) :
    (s.add bs).Sound b :=
  ⟨hbs.reverse.append h.top, h.outer, h.leaf⟩

theorem begin (h : s.Sound b) : s.begin.Sound b := ⟨h.top, h.outer, h.leaf⟩

theorem forgetBlank (h : s.Sound b) : s.forgetBlank.Sound b := ⟨h.top, h.outer, h.leaf⟩

theorem noteBlank (h : s.Sound b) : s.noteBlank.Sound b := by
  unfold Stack.noteBlank
  split
  · exact h
  · exact ⟨h.top, h.outer, h.leaf⟩

theorem closeLeaf (h : s.Sound b) : s.closeLeaf.Sound b :=
  ((h.add (h.leaf.blocks s.contained)).withLeaf .closed).withUnderlined false

theorem pop (h : s.Sound b) : s.pop.Sound b := by
  unfold Stack.pop
  split
  · exact h
  · next f fs houter =>
    obtain ⟨hf, hfs⟩ := List.forall_mem_cons.1 (houter ▸ h.outer)
    exact ⟨Frame.sound_receive hf h.top, hfs, h.leaf⟩

theorem leave (h : s.Sound b) (n : Nat) : (s.leave n).Sound b := by
  induction n with
  | zero => exact h.closeLeaf
  | succ n ih => exact ih.pop

theorem enter (h : s.Sound b) (c : Container) : (s.enter c).Sound b :=
  ⟨.nil, List.forall_mem_cons.2 ⟨Frame.sound_beginContainer h.top c, h.outer⟩, h.leaf⟩

/-! ## lines that begin a block -/

theorem beginParagraph (h : s.Sound b) (hl : l.Sound b) :
    Sound b { s.begin with leaf := .paragraph [l] } :=
  h.begin.withLeaf (.paragraph (List.forall_mem_singleton.2 hl))

theorem start (h : s.Sound b) (hl : l.Sound b) {lone : Bool} {st : Start}
    (hst : Start.ofLine? o lone l = some st) : (s.start l st).Sound b := by
  unfold Start.ofLine? at hst
  split at hst
  · next f hf =>
    cases hst
    exact h.begin.withLeaf (.fenced (Fence.open?_info hl hf) nofun)
  · split at hst
    · next k hk =>
      cases hst
      have hopen : Sound b { s.begin with leaf := .html k [l.text] } :=
        h.begin.withLeaf (.html k (List.forall_mem_singleton.2 hl.text))
      rw [Stack.start]
      dsimp only
      split
      · exact hopen.closeLeaf
      · exact hopen
    · split at hst
      · next level text htext =>
        cases hst
        exact h.begin.add (.cons (.heading (readHeading?_text hl htext)) .nil)
      · split at hst
        · cases hst
          exact h.begin.add (.cons .thematicBreak .nil)
        · cases hst

theorem fresh (h : s.Sound b) (o : MarkdownSettings) (hl : l.Sound b) : (s.fresh o l).Sound b := by
  have hclosed : Sound b { s with leaf := .closed, underlined := false } :=
    (h.withLeaf .closed).withUnderlined false
  unfold Stack.fresh
  dsimp only
  split
  · exact hclosed.noteBlank
  · split
    · exact hclosed.begin.withLeaf (.indentedCode 0 (List.forall_mem_singleton.2 (hl.textAfter _)))
    · split
      · exact hclosed.beginParagraph hl
      · split
        · next st hst => exact hclosed.start hl hst
        · exact hclosed.beginParagraph hl

/-! ## lines that go on with the open block -/

theorem goOn (h : s.Sound b) (hl : l.Sound b) : (s.goOn l).Sound b := by
  unfold Stack.goOn
  split
  · next f lines hleaf =>
    have hlines := h.leaf
    rw [hleaf] at hlines
    cases hlines with
    | fenced hf hlines =>
      split
      · have hreverse : ∀ t ∈ lines.reverse, Clean b t := fun t ht => hlines t (List.mem_reverse.1 ht)
        exact (h.add (.cons (Fence.block_sound hf (.lines hreverse)) .nil)).withLeaf .closed
      · exact h.withLeaf (.fenced hf (List.forall_mem_cons.2 ⟨hl.textAfter _, hlines⟩))
  · next k lines hleaf =>
    have hlines := h.leaf
    rw [hleaf] at hlines
    cases hlines with
    | html k hlines =>
      have hmore : Sound b { s with leaf := .html k (l.text :: lines) } :=
        h.withLeaf (.html k (List.forall_mem_cons.2 ⟨hl.text, hlines⟩))
      split
      · exact h.closeLeaf.noteBlank
      · dsimp only
        split
        · exact hmore.closeLeaf
        · exact hmore
  · exact h

theorem underline (h : s.Sound b) (hl : l.Sound b) {lines : List Line}
    (hlines : ∀ l ∈ lines, l.Sound b) (level : Nat) : (s.underline lines l level).Sound b := by
  obtain ⟨hdefinitions, hrest⟩ := Content.sound_cutDefinitions (Content.sound_ofLines hlines)
  have hadd := h.add hdefinitions
  unfold Stack.underline
  dsimp only
  split
  · exact (hadd.withLeaf (.paragraph (List.forall_mem_singleton.2 hl))).withUnderlined true
  · exact ((hadd.add (.cons (.heading hrest) .nil)).withLeaf .closed).withUnderlined true

theorem goOnParagraph (h : s.Sound b) (o : MarkdownSettings) (hl : l.Sound b) {lines : List Line}
    (hlines : ∀ l ∈ lines, l.Sound b) : (s.goOnParagraph o lines l).Sound b := by
  unfold Stack.goOnParagraph
  split
  · exact h.closeLeaf.noteBlank
  · split
    · next columns head htable =>
      have hhead : ∀ t ∈ head, Clean b t := by
        split at htable
        · obtain ⟨last, hlast, hopen⟩ := Option.bind_eq_some_iff.1 htable
          exact Table.open?_head (hlines last (List.mem_of_mem_head? hlast)) hopen
        · cases htable
      have hbefore : ∀ l ∈ lines.drop 1, l.Sound b := fun l hl => hlines l (List.mem_of_mem_drop hl)
      exact (h.add (sound_paragraphBlocks hbefore)).withLeaf (.table columns hhead nofun)
    · split
      · exact h.underline hl hlines _
      · split
        · next st hst => exact h.closeLeaf.start hl hst
        · exact h.withLeaf (.paragraph (List.forall_mem_cons.2 ⟨hl, hlines⟩))

theorem goOnCode (h : s.Sound b) (o : MarkdownSettings) (hl : l.Sound b) {lines : List Text}
    (hlines : ∀ t ∈ lines, Clean b t) (blanks : Nat) : (s.goOnCode o lines blanks l).Sound b := by
  unfold Stack.goOnCode
  split
  · have hblanks : ∀ t ∈ List.replicate blanks ([] : Text), Clean b t := fun t ht =>
      (List.eq_of_mem_replicate ht) ▸ .nil
    refine h.forgetBlank.withLeaf (.indentedCode 0 (List.forall_mem_append.2 ⟨?_, hlines⟩))
    exact List.forall_mem_cons.2 ⟨hl.textAfter _, hblanks⟩
  · split
    · exact h.noteBlank.withLeaf (.indentedCode _ hlines)
    · exact h.closeLeaf.fresh o hl

theorem goOnTable (h : s.Sound b) (o : MarkdownSettings) (hl : l.Sound b)
    (columns : List Alignment) {head : List Text} (hhead : ∀ t ∈ head, Clean b t)
    {rows : List (List Text)} (hrows : ∀ r ∈ rows, ∀ t ∈ r, Clean b t) :
    (s.goOnTable o columns head rows l).Sound b := by
  unfold Stack.goOnTable
  split
  · exact h.closeLeaf.fresh o hl
  · exact h.withLeaf (.table columns hhead (List.forall_mem_cons.2 ⟨Table.sound_cells hl, hrows⟩))

theorem readInner (h : s.Sound b) (o : MarkdownSettings) (hl : l.Sound b) :
    (s.readInner o l).Sound b := by
  have hleaf := h.leaf
  unfold Stack.readInner
  split
  · exact h.fresh o hl
  · next lines hlines =>
    rw [hlines] at hleaf
    cases hleaf with
    | paragraph hlines => exact (h.withUnderlined false).goOnParagraph o hl hlines
  · next lines blanks hlines =>
    rw [hlines] at hleaf
    cases hleaf with
    | indentedCode blanks hlines => exact h.goOnCode o hl hlines blanks
  · next columns head rows hrows =>
    rw [hrows] at hleaf
    cases hleaf with
    | table columns hhead hrows => exact h.goOnTable o hl columns hhead hrows
  · exact h.goOn hl

theorem addLazy (h : s.Sound b) (hl : l.Sound b) : (s.addLazy l).Sound b := by
  unfold Stack.addLazy
  split
  · next lines hlines =>
    have hleaf := h.leaf
    rw [hlines] at hleaf
    cases hleaf with
    | paragraph hlines =>
      exact (h.withLeaf (.paragraph (List.forall_mem_cons.2 ⟨hl, hlines⟩))).withUnderlined false
  · exact (h.beginParagraph hl).withUnderlined false

/-! ## lines that go on with containers -/

theorem withFrames (h : s.Sound b) {fs : List Frame} (hfs : ∀ f ∈ fs, SoundBlocks b f.blocks) :
    (s.withFrames fs).Sound b := by
  unfold Stack.withFrames
  split
  · exact h
  · next top outer hreverse =>
    have hframes : ∀ f ∈ top :: outer, SoundBlocks b f.blocks := fun f hf =>
      hfs f (List.mem_reverse.1 (hreverse ▸ hf))
    obtain ⟨htop, houter⟩ := List.forall_mem_cons.1 hframes
    exact ⟨htop, houter, h.leaf⟩

theorem openMore (h : s.Sound b) (n : Nat) (l : Line) : (openMore o n s l).1.Sound b := by
  induction n generalizing s l with
  | zero => exact h
  | succ n ih =>
    rw [Stack.openMore]
    split
    · exact ih (h.enter _) _
    · exact h

theorem readRest (h : s.Sound b) (hl : l.Sound b) (n : Nat) : (s.readRest o n l).Sound b := by
  unfold Stack.readRest
  split
  · exact h.goOn hl
  · split
    · next t ht =>
      have ht' := hl.tail (Container.open?_tail ht).1
      exact (((h.leave n).enter t.1).openMore _ t.2).fresh o (ht'.tail (openMore_tail o _ _ t.2))
    · split
      · exact h.readInner o hl
      · unfold goOnOutside
        split
        · exact h.addLazy hl
        · exact (h.leave n).fresh o hl

end Sound

theorem sound_follow {fs : List Frame} (h : ∀ f ∈ fs, SoundBlocks b f.blocks) (l : Line) :
    ∀ f ∈ (follow fs l).1 ++ (follow fs l).2.1, SoundBlocks b f.blocks := by
  induction fs generalizing l with
  | nil => exact h
  | cons f fs ih =>
    rw [follow]
    split
    · exact h
    · next c t _ =>
      obtain ⟨hf, hfs⟩ := List.forall_mem_cons.1 h
      exact List.forall_mem_cons.2 ⟨hf, ih hfs t⟩

/-- a line that is clean keeps the state clean -/
theorem Sound.readLine {s : Stack} {l : Line} (h : s.Sound b) (o : MarkdownSettings)
    (hl : l.Sound b) : (s.readLine o l).Sound b := by
  have hframes : ∀ f ∈ s.outer.reverse ++ [s.top], SoundBlocks b f.blocks :=
    List.forall_mem_append.2
      ⟨fun f hf => h.outer f (List.mem_reverse.1 hf), List.forall_mem_singleton.2 h.top⟩
  rw [readLine_eq rfl]
  exact (h.withFrames (sound_follow hframes l)).readRest (hl.tail (follow_frames _ l).2.2) _

theorem Sound.readLines {s : Stack} {ls : List Line} (h : s.Sound b) (o : MarkdownSettings)
    (hls : ∀ l ∈ ls, l.Sound b) : (ls.foldl (Stack.readLine o) s).Sound b := by
  induction ls generalizing s with
  | nil => exact h
  | cons l ls ih =>
    obtain ⟨hl, hls⟩ := List.forall_mem_cons.1 hls
    exact ih (h.readLine o hl) hls

end Stack

/-! ## documents -/

theorem sound_linesFrom (start : Nat) {s : Text} (h : Clean b s) :
    ∀ l ∈ linesFrom start s, l.Sound b := by
  intro l hl
  have hplace : l ∈ Line.place start (Text.splitOn '\n' s) := by
    unfold linesFrom at hl
    dsimp only at hl
    split at hl
    · exact List.dropLast_subset _ hl
    · exact hl
  exact h.splitOn (rest_place hplace)

theorem readBlocksFrom_sound (o : MarkdownSettings) (start : Nat) {s : Text} (h : Clean b s) :
    SoundBlocks b (readBlocksFrom o start s) := by
  have hempty : Stack.Sound b {} := ⟨.nil, nofun, .closed⟩
  have hlines := hempty.readLines o (sound_linesFrom start h)
  unfold readBlocksFrom
  dsimp only
  refine SoundBlocks.reverse (Stack.Sound.leave ?_ _).top
  split
  · exact hlines.withLeaf hlines.leaf.afterLast
  · exact hlines

/-- **The texts in the blocks of a document are parts of it.** -/
theorem readDocument_sound (o : MarkdownSettings) {s : Text} (h : Clean b s) :
    SoundBlocks b (readDocument o s) := by
  unfold readDocument
  split
  · exact readBlocksFrom_sound o 3 h.tail
  · exact readBlocksFrom_sound o 0 h

end MarkdownModule.Markdown

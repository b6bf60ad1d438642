import MarkdownModule.Proofs.Markdown.Marked.Reading
import MarkdownModule.Proofs.Markdown.Return.Text

/-!
# The texts that blocks are read with

A document is read line by line.  What is kept of a line is a part of it, and lines are joined with
line endings, so that each text of a block is clean when the document is.

* `Block.Sound`              the texts in a block are clean
* `Definition.read?_sound`   the title of a definition
* `Table.sound_cells`        the cells of a line
* `Leaf.Sound`               the lines of an open block
* `Leaf.Sound.blocks`        the blocks that it comes to
-/

namespace MarkdownModule.Markdown

/-! ## blocks -/

/-- a resource whose title holds a carriage return only when `b` holds -/
def Resource.Sound (b : Prop) (r : Resource) : Prop := ∀ t ∈ r.title, Brings b t

/-- each content in a block satisfies `P`, its other texts hold no carriage return, and what is decoded
holds one only when `b` holds -/
inductive Block.Sound {α : Type} (b : Prop) (P : α → Prop) : Block α → Prop
  | thematicBreak : Sound b P .thematicBreak
  | heading {level : Nat} {c : α} (h : P c) : Sound b P (.heading level c)
  | paragraph {c : α} (h : P c) : Sound b P (.paragraph c)
  | code {language text : Text} (hl : Brings b language) (h : Plain text) :
      Sound b P (.code language text)
  | formula {text : Text} (h : Plain text) : Sound b P (.formula text)
  | html {text : Text} (h : Plain text) : Sound b P (.html text)
  | quote {inner : List (Block α)} (h : ∀ x ∈ inner, Sound b P x) : Sound b P (.quote inner)
  | list {marker : Char} {start : Nat} {loose : Bool} {items : List (List (Block α))}
      (h : ∀ i ∈ items, ∀ x ∈ i, Sound b P x) : Sound b P (.list marker start loose items)
  | table {columns : List Alignment} {head : List α} {rows : List (List α)} (hhead : ∀ c ∈ head, P c)
      (hrows : ∀ r ∈ rows, ∀ c ∈ r, P c) : Sound b P (.table columns head rows)
  | definition {d : Definition} (h : d.resource.Sound b) : Sound b P (.definition d)
  | footnote {label : Text} {inner : List (Block α)} (h : ∀ x ∈ inner, Sound b P x) :
      Sound b P (.footnote label inner)

def Content.Sound (b : Prop) (c : Content) : Prop := Clean b c.text

def SoundBlocks (b : Prop) (bs : List (Block Content)) : Prop :=
  ∀ x ∈ bs, x.Sound b (Content.Sound b)

variable {b : Prop}

theorem SoundBlocks.nil : SoundBlocks b [] := nofun

theorem SoundBlocks.cons {x : Block Content} {bs : List (Block Content)}
    (hx : x.Sound b (Content.Sound b)) (h : SoundBlocks b bs) : SoundBlocks b (x :: bs) :=
  List.forall_mem_cons.2 ⟨hx, h⟩

theorem SoundBlocks.append {bs cs : List (Block Content)} (hb : SoundBlocks b bs)
    (hc : SoundBlocks b cs) : SoundBlocks b (bs ++ cs) :=
  List.forall_mem_append.2 ⟨hb, hc⟩

theorem SoundBlocks.reverse {bs : List (Block Content)} (h : SoundBlocks b bs) :
    SoundBlocks b bs.reverse :=
  fun x hx => h x (List.mem_reverse.1 hx)

/-! ## lines -/

def Line.Sound (b : Prop) (l : Line) : Prop := Clean b l.rest

namespace Line.Sound

variable {l t : Line}

theorem tail (h : l.Sound b) (ht : t.TailOf l) : t.Sound b := h.rest ht.1

theorem inner (h : l.Sound b) : Clean b l.inner := h.rest (List.dropWhile_suffix isGap)

theorem text (h : l.Sound b) : Clean b l.text := h.spaces l.spare

theorem textAfter (h : l.Sound b) (n : Nat) : Clean b (l.skip n).text := (h.tail (l.skip_tail n)).text

end Line.Sound

theorem Content.sound_ofLines {lines : List Line} (h : ∀ l ∈ lines, l.Sound b) :
    (Content.ofLines lines).Sound b := by
  refine Clean.intercalate (by decide) (by decide) fun t ht => ?_
  obtain ⟨l, hl, rfl⟩ := List.mem_map.1 ht
  exact (h l (List.mem_reverse.1 hl)).text

/-! ## definitions -/

theorem readTitle?_part {s x r : Text} (h : readTitle? s = some (x, r)) : x <:+: s := by
  have hspan : ∀ {close : Char} {s : Text}, titleSpan? close s = some (x, r) → x <+: s := by
    intro close s h
    rw [titleSpan?_eq] at h
    obtain ⟨c, -, rfl⟩ := Container.spanTo_close h
    exact List.prefix_append x _
  unfold readTitle? at h
  split at h
  · exact (hspan h).isInfix.trans (List.suffix_cons _ _).isInfix
  · exact (hspan h).isInfix.trans (List.suffix_cons _ _).isInfix
  · exact (hspan h).isInfix.trans (List.suffix_cons _ _).isInfix
  · cases h

theorem Clean.titleOf {s x r : Text} (h : Clean b s) (hread : readTitle? s = some (x, r)) :
    ∀ t ∈ titleOf x, Brings b t := by
  intro t ht
  unfold Markdown.titleOf at ht
  split at ht
  · cases ht
  · cases ht
    exact (h.part (readTitle?_part hread)).decode

namespace Definition

theorem endTitle?_title {s x r : Text} (hs : Clean b s) (h : endTitle? s = some (x, r)) :
    ∀ t ∈ titleOf x, Brings b t := by
  unfold endTitle? at h
  dsimp only at h
  split at h
  · obtain ⟨⟨title, u⟩, htitle, h⟩ := Option.bind_eq_some_iff.1 h
    obtain ⟨rest, -, h⟩ := Option.bind_eq_some_iff.1 h
    cases h
    exact (hs.rest (List.dropWhile_suffix isWide)).titleOf htitle
  · cases h

theorem read?_sound {s r : Text} {d : Definition} (hs : Clean b s) (h : read? s = some (d, r)) :
    d.resource.Sound b := by
  unfold read? at h
  split at h
  · next t ht =>
    have ht' := hs.rest (List.dropWhile_suffix isGap)
    rw [ht] at ht'
    obtain ⟨⟨label, u⟩, hlabel, h⟩ := Option.bind_eq_some_iff.1 h
    obtain ⟨w, hw, -⟩ := Label.whole_read? hlabel
    have hu := ht'.tail.rest (show u <:+ t from ⟨w, hw.symm⟩)
    dsimp only at h
    split at h
    · next u =>
      obtain ⟨⟨destination, v⟩, hdestination, h⟩ := Option.bind_eq_some_iff.1 h
      obtain ⟨y, hy, -⟩ := readDestination?_eq_some hdestination
      have hv : Clean b v := hu.tail.rest
        ((show v <:+ _ from ⟨y, hy.symm⟩).trans (List.dropWhile_suffix isWide))
      dsimp only at h
      split at h
      · next title rest htitle =>
        cases h
        exact endTitle?_title hv htitle
      · obtain ⟨rest, -, h⟩ := Option.bind_eq_some_iff.1 h
        cases h
        exact nofun
    · cases h
  · cases h

theorem readSome_sound (n : Nat) {s : Text} (hs : Clean b s) :
    ∀ d ∈ (readSome n s).1, d.resource.Sound b := by
  induction n generalizing s with
  | zero => exact List.forall_mem_nil _
  | succ n ih =>
    rw [readSome]
    split
    · next d rest h =>
      exact List.forall_mem_cons.2 ⟨read?_sound hs h, ih (hs.rest (read?_suffix h))⟩
    · exact List.forall_mem_nil _

end Definition

theorem Content.sound_cutDefinitions {c : Content} (h : c.Sound b) :
    SoundBlocks b (c.cutDefinitions.1.map .definition) ∧ c.cutDefinitions.2.Sound b := by
  constructor
  · intro x hx
    obtain ⟨d, hd, rfl⟩ := List.mem_map.1 hx
    exact .definition (Definition.readSome_sound _ h d hd)
  · exact Clean.rest h (Definition.readSome_suffix _ _)

theorem sound_paragraphBlocks {lines : List Line} (h : ∀ l ∈ lines, l.Sound b) :
    SoundBlocks b (Leaf.paragraphBlocks lines) := by
  obtain ⟨hdefinitions, hrest⟩ := Content.sound_cutDefinitions (Content.sound_ofLines h)
  unfold Leaf.paragraphBlocks
  refine hdefinitions.append ?_
  split
  · exact .nil
  · exact .cons (.paragraph hrest) .nil

/-! ## fences, headings and tables -/

variable {l : Line}

theorem Fence.open?_info {o : MarkdownSettings} {f : Fence} (hl : l.Sound b)
    (h : Fence.open? o l = some f) : Clean b f.info := by
  obtain ⟨c, -, h⟩ := Option.bind_eq_some_iff.1 h
  obtain ⟨fewest, -, h⟩ := Option.bind_eq_some_iff.1 h
  dsimp only at h
  split at h
  · cases h
  · cases h
    refine hl.inner.part (List.IsInfix.trans (List.takeWhile_prefix _).isInfix ?_)
    exact ((List.dropWhile_suffix isGap).trans (List.drop_suffix _ _)).isInfix

theorem prefix_dropClosing (n : Nat) (s : Text) : dropClosing n s <+: s := by
  induction n generalizing s with
  | zero => exact List.prefix_rfl
  | succ n ih =>
    have hkept := Text.prefix_dropEndWhile isGap s
    rw [dropClosing]
    split
    · exact (ih _).trans ((Text.prefix_dropEndWhile _ _).trans hkept)
    · exact hkept

theorem readHeading?_text {level : Nat} {t : Text} (hl : l.Sound b)
    (h : readHeading? l = some (level, t)) : Clean b t := by
  unfold readHeading? at h
  dsimp only at h
  split at h
  · cases h
  · cases h
    refine hl.inner.part (List.IsInfix.trans (prefix_dropClosing _ _).isInfix ?_)
    exact ((List.dropWhile_suffix _).trans (List.drop_suffix _ _)).isInfix

namespace Table

/-- the first cell begins the row, and the others stand in it -/
def CutOf (s : Text) (ws : List Text) : Prop :=
  ∃ u us, ws = u :: us ∧ u <+: s ∧ ∀ t ∈ us, t <:+: s

theorem CutOf.before {s : Text} {ws : List Text} (p : Text) (h : CutOf s ws) :
    CutOf (p ++ s) (Table.before p ws) := by
  obtain ⟨u, us, rfl, hu, hus⟩ := h
  exact ⟨p ++ u, us, rfl, (List.prefix_append_right_inj p).2 hu,
    fun t ht => (hus t ht).trans (List.suffix_append p s).isInfix⟩

theorem cutOf_splitBars (s : Text) : CutOf s (splitBars s) := by
  induction s using splitBars.induct with
  | case1 => exact ⟨[], [], rfl, List.prefix_rfl, List.forall_mem_nil _⟩
  | case2 c r hc _ ih | case3 c r hc _ _ _ ih =>
    rw [splitBars_escaped hc]
    exact ih.before ['\\', c]
  | case4 c r hc _ ih | case5 c r hc _ _ _ ih =>
    rw [splitBars_backslash hc]
    exact ih.before ['\\']
  | case6 r _ ih =>
    obtain ⟨u, us, hr, hu, hus⟩ := ih
    have hin := (List.suffix_cons '|' r).isInfix
    rw [splitBars_bar, hr]
    refine ⟨[], u :: us, rfl, List.nil_prefix, List.forall_mem_cons.2 ⟨hu.isInfix.trans hin, ?_⟩⟩
    exact fun t ht => (hus t ht).trans hin
  | case7 c r hc hbar hr ih =>
    obtain ⟨u, us, hcut, -⟩ := ih
    rw [hcut] at hr
    cases hr
  | case8 c r hc hbar w ws hr ih =>
    rw [splitBars, if_neg hbar, hr]
    · rw [hr] at ih
      exact ih.before [c]
    · exact hc

theorem dropEmptyLast_subset (cs : List Text) : dropEmptyLast cs ⊆ cs := by
  fun_induction dropEmptyLast cs with
  | case1 | case2 => exact List.Subset.refl _
  | case3 c => exact List.cons_subset_cons c (List.nil_subset _)
  | case4 c cs _ _ ih => exact List.cons_subset_cons c ih

theorem infix_of_mem_cells {s t : Text} (h : t ∈ cells s) : t <:+: s := by
  rw [cells_eq] at h
  obtain ⟨w, hw, rfl⟩ := List.mem_map.1 (dropEmptyLast_subset _ h)
  have htrim : trim w <:+: w :=
    (Text.prefix_dropEndWhile isGap _).isInfix.trans (List.dropWhile_suffix isGap).isInfix
  have hbody : body s <:+ s := by
    unfold body
    split
    · exact List.suffix_cons _ _
    · exact List.suffix_rfl
  obtain ⟨u, us, hcut, hu, hus⟩ := cutOf_splitBars (body s)
  rw [hcut] at hw
  refine htrim.trans (List.IsInfix.trans ?_ hbody.isInfix)
  rcases List.mem_cons.1 hw with rfl | hw
  · exact hu.isInfix
  · exact hus w hw

theorem sound_cells (hl : l.Sound b) : ∀ t ∈ cells l.inner, Clean b t :=
  fun _ ht => hl.inner.part (infix_of_mem_cells ht)

theorem open?_head {head : Line} {columns : List Alignment} {cs : List Text} (hhead : head.Sound b)
    (h : open? head l = some (columns, cs)) : ∀ t ∈ cs, Clean b t := by
  obtain ⟨columns', -, h⟩ := Option.bind_eq_some_iff.1 h
  dsimp only at h
  split at h
  · cases h
  · cases h
    exact sound_cells hhead

end Table

/-! ## open blocks -/

inductive Leaf.Sound (b : Prop) : Leaf → Prop
  | closed : Sound b .closed
  | paragraph {lines : List Line} (h : ∀ l ∈ lines, l.Sound b) : Sound b (.paragraph lines)
  | indentedCode {lines : List Text} (blanks : Nat) (h : ∀ t ∈ lines, Clean b t) :
      Sound b (.indentedCode lines blanks)
  | fenced {f : Fence} {lines : List Text} (hf : Clean b f.info) (h : ∀ t ∈ lines, Clean b t) :
      Sound b (.fenced f lines)
  | html (k : RawHtml) {lines : List Text} (h : ∀ t ∈ lines, Clean b t) : Sound b (.html k lines)
  | table (columns : List Alignment) {head : List Text} {rows : List (List Text)}
      (hhead : ∀ t ∈ head, Clean b t) (hrows : ∀ r ∈ rows, ∀ t ∈ r, Clean b t) :
      Sound b (.table columns head rows)

section
variable {lines : List Text}

theorem clean_openText (h : ∀ t ∈ lines, Clean b t) : Clean b (Fence.openText lines) := by
  have hlines : Clean b (List.intercalate ['\n'] lines) := .intercalate (by decide) (by decide) h
  unfold Fence.openText
  dsimp only
  split
  · exact hlines
  · exact hlines.line .nil

theorem clean_unclosedText (contained : Bool) (h : ∀ t ∈ lines, Clean b t) :
    Clean b (Leaf.unclosedText contained lines) := by
  unfold Leaf.unclosedText
  split
  · exact .lines h
  · exact clean_openText h

theorem Fence.block_sound {f : Fence} {text : Text} (hf : Clean b f.info) (h : Clean b text) :
    (f.block text).Sound b (Content.Sound b) := by
  unfold Fence.block
  split
  · exact .formula h.plain
  · exact .code hf.decode h.plain

theorem Leaf.Sound.blocks {leaf : Leaf} (h : leaf.Sound b) (contained : Bool) :
    SoundBlocks b (leaf.blocks contained) := by
  have hreverse : ∀ {lines : List Text}, (∀ t ∈ lines, Clean b t) → ∀ t ∈ lines.reverse, Clean b t :=
    fun h t ht => h t (List.mem_reverse.1 ht)
  cases h with
  | closed => exact .nil
  | paragraph h => exact sound_paragraphBlocks h
  | indentedCode blanks h =>
    exact .cons (.code List.not_mem_nil.elim (clean_openText (hreverse h)).plain) .nil
  | fenced hf h => exact .cons (Fence.block_sound hf (clean_unclosedText contained (hreverse h))) .nil
  | html k h =>
    exact .cons (.html (Clean.intercalate (by decide) (by decide) (hreverse h)).plain) .nil
  | table columns hhead hrows =>
    refine .cons (.table (List.forall_mem_map.2 hhead) fun r hr => ?_) .nil
    obtain ⟨r, hr', rfl⟩ := List.mem_map.1 hr
    exact List.forall_mem_map.2 (hrows r (List.mem_reverse.1 hr'))

theorem Leaf.Sound.afterLast {leaf : Leaf} (h : leaf.Sound b) : leaf.afterLast.Sound b := by
  cases h with
  | fenced hf h => exact .fenced hf (List.forall_mem_cons.2 ⟨.nil, h⟩)
  | html k h =>
    rw [Leaf.afterLast]
    split
    · exact .html k h
    · exact .html k (List.forall_mem_cons.2 ⟨.nil, h⟩)
  | closed => exact .closed
  | paragraph h => exact .paragraph h
  | indentedCode blanks h => exact .indentedCode blanks h
  | table columns hhead hrows => exact .table columns hhead hrows

end

end MarkdownModule.Markdown

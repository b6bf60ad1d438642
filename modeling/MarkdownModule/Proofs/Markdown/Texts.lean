import MarkdownModule.Markdown.Document
import Mathlib.Data.List.Perm.Basic
import Mathlib.Data.Option.Basic

/-!
# The texts of a document that is read line by line

One line goes on with the open paragraph, or it closes that paragraph and may begin another one.
The texts that are closed stay as they are, whatever is read after them.

* `Block.texts`           the texts in a block, each with whether it is that of a paragraph
* `Stack.Gains`           the texts that are closed between two states
* `Stack.Turn`            what one line does to the open paragraph
* `Stack.readLine_turn`   each line does it
-/

namespace MarkdownModule.Markdown

/-! ## texts of blocks -/

namespace Block

variable {α : Type}

mutual

/-- the texts in a block, each with whether it is that of a paragraph -/
def texts : Block α → List (Bool × α)
  | .heading _ c => [(false, c)]
  | .paragraph c => [(true, c)]
  | .quote inner => textsIn inner
  | .list _ _ _ items => textsInItems items
  | .table _ head rows => (head ++ rows.flatten).map (Prod.mk false)
  | .footnote _ inner => textsIn inner
  | _ => []

def textsIn : List (Block α) → List (Bool × α)
  | [] => []
  | b :: bs => b.texts ++ textsIn bs

def textsInItems : List (List (Block α)) → List (Bool × α)
  | [] => []
  | i :: is => textsIn i ++ textsInItems is

end

theorem textsIn_append (as bs : List (Block α)) :
    textsIn (as ++ bs) = textsIn as ++ textsIn bs := by
  induction as with
  | nil => rfl
  | cons a as ih => rw [List.cons_append, textsIn, ih, textsIn, List.append_assoc]

theorem textsIn_reverse (bs : List (Block α)) : (textsIn bs.reverse).Perm (textsIn bs) := by
  induction bs with
  | nil => exact .refl _
  | cons b bs ih =>
    rw [List.reverse_cons, textsIn_append, textsIn, textsIn, textsIn, List.append_nil]
    exact (ih.append_right _).trans List.perm_append_comm

theorem textsInItems_append (is js : List (List (Block α))) :
    textsInItems (is ++ js) = textsInItems is ++ textsInItems js := by
  induction is with
  | nil => rfl
  | cons i is ih => rw [List.cons_append, textsInItems, ih, textsInItems, List.append_assoc]

theorem textsIn_definitions (ds : List Definition) :
    textsIn (ds.map (.definition : Definition → Block α)) = [] := by
  induction ds with
  | nil => rfl
  | cons d ds ih => exact ih

end Block

/-! ## tails of lines -/

namespace Line

/-- what is left of a line after a part of it was taken -/
def TailOf (t l : Line) : Prop := t.rest <:+ l.rest ∧ t.stop = l.stop

theorem TailOf.refl (l : Line) : l.TailOf l := ⟨List.suffix_rfl, rfl⟩

theorem TailOf.trans {a b c : Line} (h : a.TailOf b) (h' : b.TailOf c) : a.TailOf c :=
  ⟨h.1.trans h'.1, h.2.trans h'.2⟩

theorem skipColumn_tail (l : Line) : l.skipColumn.TailOf l := by
  unfold skipColumn
  split
  · exact .refl l
  · split
    · exact .refl l
    · next c r h =>
      have hr : r <:+ l.rest := h ▸ List.suffix_cons c r
      split
      · exact ⟨hr, rfl⟩
      · split
        · exact ⟨hr, rfl⟩
        · exact .refl l

theorem skip_tail (n : Nat) (l : Line) : (l.skip n).TailOf l := by
  induction n generalizing l with
  | zero => exact .refl l
  | succ n ih => exact (ih l.skipColumn).trans l.skipColumn_tail

theorem skipAll_tail (l : Line) : l.skipAll.TailOf l := l.skip_tail _

theorem drop_tail (n : Nat) (l : Line) : (l.drop n).TailOf l := ⟨List.drop_suffix n l.rest, rfl⟩

end Line

namespace Container

theorem afterQuoteMark?_tail {l t : Line} (h : afterQuoteMark? l = some t) : t.TailOf l := by
  unfold afterQuoteMark? at h
  split at h
  · split at h
    · cases h
    · cases h
      exact (Line.skipColumn_tail _).trans ((Line.drop_tail 1 _).trans l.skipAll_tail)
  · cases h

theorem openItem?_tail {interrupts : Bool} {l t : Line} {c : Container}
    (h : openItem? interrupts l = some (c, t)) : t.TailOf l ∧ c ≠ .document := by
  unfold openItem? at h
  obtain ⟨⟨marker, number, size⟩, -, h⟩ := Option.bind_eq_some_iff.1 h
  have hafter : (l.skipAll.drop size).TailOf l := (Line.drop_tail size _).trans l.skipAll_tail
  dsimp only at h
  split at h
  · cases h
  · split at h
    · split at h
      · cases h
      · cases h
        exact ⟨hafter, nofun⟩
    · split at h
      · cases h
      · split at h
        · cases h
          exact ⟨(Line.skip_tail _ _).trans hafter, nofun⟩
        · cases h
          exact ⟨(Line.skip_tail _ _).trans hafter, nofun⟩

theorem openFootnote?_tail {l t : Line} {c : Container} (h : openFootnote? l = some (c, t)) :
    t.TailOf l ∧ c ≠ .document := by
  unfold openFootnote? at h
  split at h
  · obtain ⟨⟨label, rest⟩, -, h⟩ := Option.bind_eq_some_iff.1 h
    dsimp only at h
    split at h
    · split at h
      · cases h
      · cases h
        exact ⟨(Line.skipAll_tail _).trans ((Line.drop_tail _ _).trans l.skipAll_tail), nofun⟩
    · cases h
  · cases h

theorem open?_tail {o : MarkdownSettings} {interrupts : Bool} {l t : Line} {c : Container}
    (h : open? o interrupts l = some (c, t)) : t.TailOf l ∧ c ≠ .document := by
  unfold open? at h
  split at h
  · next after hafter =>
    cases h
    exact ⟨afterQuoteMark?_tail hafter, nofun⟩
  · rcases (Option.orElse_eq_some _ _ _).1 h with h | ⟨-, h⟩
    · exact openItem?_tail h
    · split at h
      · exact openFootnote?_tail h
      · cases h

theorem continue?_tail {c d : Container} {l t : Line} (h : c.continue? l = some (d, t)) :
    t.TailOf l ∧ (d = .document → c = .document) := by
  unfold continue? at h
  cases c with
  | document =>
    cases h
    exact ⟨.refl l, fun _ => rfl⟩
  | quote =>
    obtain ⟨after, hafter, hd⟩ := Option.map_eq_some_iff.1 h
    cases hd
    exact ⟨afterQuoteMark?_tail hafter, nofun⟩
  | item marker number width empty =>
    dsimp only at h
    split at h
    · split at h
      · cases h
      · cases h
        exact ⟨l.skip_tail _, nofun⟩
    · split at h
      · cases h
      · cases h
        exact ⟨l.skip_tail _, nofun⟩
  | footnote label =>
    dsimp only at h
    split at h
    · cases h
      exact ⟨l.skip_tail _, nofun⟩
    · split at h
      · cases h
      · cases h
        exact ⟨l.skip_tail _, nofun⟩

end Container

/-! ## texts of open containers -/

/-- the lines of the open paragraph, from the last one to the first -/
def Leaf.lines : Leaf → List Line
  | .paragraph lines => lines
  | _ => []

def Leaf.isTable : Leaf → Bool
  | .table _ _ _ => true
  | _ => false

theorem Leaf.lines_of_isTable {l : Leaf} (h : l.isTable = true) : l.lines = [] := by
  cases l with
  | paragraph lines => cases h
  | closed | indentedCode _ _ | fenced _ _ | html _ _ | table _ _ _ => rfl

namespace Frame

theorem texts_addItem (marker : Char) (number : Nat) (loose : Bool) (item bs : List (Block Content)) :
    (Block.textsIn (addItem marker number loose item bs)).Perm
      (Block.textsIn item ++ Block.textsIn bs) := by
  unfold addItem
  split
  · next m start l items bs =>
    split
    · simp only [Block.textsIn, Block.texts, Block.textsInItems_append, Block.textsInItems,
        List.append_nil]
      rw [List.append_assoc, ← List.append_assoc, ← List.append_assoc]
      exact List.perm_append_comm.append_right _
    · simp only [Block.textsIn, Block.texts, Block.textsInItems, List.append_nil]
      exact .refl _
  · simp only [Block.textsIn, Block.texts, Block.textsInItems, List.append_nil]
    exact .refl _

theorem texts_receive {f inner : Frame} (h : inner.container ≠ .document) :
    (Block.textsIn (f.receive inner).blocks).Perm
      (Block.textsIn inner.blocks ++ Block.textsIn f.blocks) := by
  have hcontent := Block.textsIn_reverse inner.blocks
  unfold receive
  cases hc : inner.container with
  | document => exact absurd hc h
  | quote => exact hcontent.append_right _
  | item marker number width empty => exact (texts_addItem ..).trans (hcontent.append_right _)
  | footnote label => exact hcontent.append_right _

theorem texts_beginContainer (f : Frame) (c : Container) :
    Block.textsIn (f.beginContainer c).blocks = Block.textsIn f.blocks := by
  unfold beginContainer
  split
  · next hblocks =>
    split
    · rw [hblocks]
      rfl
    · rfl
  · rfl

end Frame

namespace Stack

/-- the open containers, from the innermost to the document -/
def frames (s : Stack) : List Frame := s.top :: s.outer

def textsOf (fs : List Frame) : List (Bool × Content) := fs.flatMap (Block.textsIn ·.blocks)

/-- the texts that are closed -/
def texts (s : Stack) : List (Bool × Content) := textsOf s.frames

/-- only the last of a container and those around it is the document -/
def RootedIn : Container → List Frame → Prop
  | _, [] => True
  | c, f :: fs => c ≠ .document ∧ RootedIn f.container fs

/-- the document stands around all other containers -/
def Rooted (s : Stack) : Prop := RootedIn s.top.container s.outer

/-- the texts that are closed between two states, but for texts on one line that are no paragraphs -/
def Gains (s s' : Stack) (new : List (Bool × Content)) : Prop :=
  ∃ plain, (∀ t ∈ plain, t.1 = false ∧ t.2.lineEnds = []) ∧ s'.texts.Perm (plain ++ new ++ s.texts)

variable {s s' s'' : Stack} {new new' : List (Bool × Content)}

theorem Gains.of_perm (h : s'.texts.Perm (new ++ s.texts)) : Gains s s' new :=
  ⟨[], nofun, h⟩

theorem Gains.of_eq (h : s'.texts = s.texts) : Gains s s' [] := .of_perm (.of_eq h)

theorem Gains.trans (h : Gains s s' new) (h' : Gains s' s'' new') : Gains s s'' (new' ++ new) := by
  obtain ⟨plain, hplain, h⟩ := h
  obtain ⟨plain', hplain', h'⟩ := h'
  refine ⟨plain' ++ plain, List.forall_mem_append.2 ⟨hplain', hplain⟩, h'.trans ?_⟩
  have hcomm : (new' ++ plain).Perm (plain ++ new') := List.perm_append_comm
  have hmove := hcomm.append_right (new ++ s.texts)
  simp only [List.append_assoc] at h hmove ⊢
  exact ((h.append_left new').trans hmove).append_left plain'

theorem Gains.before (h : Gains s s' []) (h' : Gains s' s'' new) : Gains s s'' new := by
  simpa using h.trans h'

theorem Gains.after (h : Gains s s' new) (h' : Gains s' s'' []) : Gains s s'' new := h.trans h'

theorem add_gains (s : Stack) (bs : List (Block Content)) : Gains s (s.add bs) (Block.textsIn bs) := by
  refine .of_perm ?_
  have h := (Block.textsIn_reverse bs).append_right (s.texts)
  rw [texts, frames, add]
  simp only [textsOf, List.flatMap_cons, Block.textsIn_append, List.append_assoc]
  exact h

/-- blocks without texts of several lines -/
theorem add_plain (s : Stack) {bs : List (Block Content)}
    (h : ∀ t ∈ Block.textsIn bs, t.1 = false ∧ t.2.lineEnds = []) : Gains s (s.add bs) [] := by
  obtain ⟨plain, hplain, hperm⟩ := s.add_gains bs
  refine ⟨plain ++ Block.textsIn bs, List.forall_mem_append.2 ⟨hplain, h⟩, ?_⟩
  rw [List.append_nil]
  exact hperm

theorem texts_block (f : Fence) (text : Text) : (f.block text : Block Content).texts = [] := by
  unfold Fence.block
  split <;> rfl

theorem textsIn_paragraphBlocks (lines : List Line) :
    Block.textsIn (Leaf.paragraphBlocks lines) =
      if (Content.ofLines lines).cutDefinitions.2.text.isEmpty then []
      else [(true, (Content.ofLines lines).cutDefinitions.2)] := by
  rw [Leaf.paragraphBlocks]
  dsimp only
  rw [Block.textsIn_append, Block.textsIn_definitions, List.nil_append]
  split <;> rfl

theorem closeLeaf_gains (s : Stack) :
    Gains s s.closeLeaf (Block.textsIn (Leaf.paragraphBlocks s.leaf.lines)) := by
  have hadd : ∀ {new}, Gains s (s.add (s.leaf.blocks s.contained)) new → Gains s s.closeLeaf new :=
    fun h => h
  refine hadd ?_
  cases hleaf : s.leaf with
  | closed => exact .of_eq rfl
  | paragraph lines => exact s.add_gains _
  | indentedCode lines blanks => exact s.add_plain nofun
  | fenced f lines =>
    refine s.add_plain ?_
    simp only [Leaf.blocks, Block.textsIn, texts_block, List.append_nil]
    exact nofun
  | html k lines => exact s.add_plain nofun
  | table columns head rows =>
    refine s.add_plain fun t ht => ?_
    simp only [Leaf.blocks, Block.textsIn, Block.texts, List.append_nil,
      ← List.map_flatten, ← List.map_append, List.mem_map] at ht
    obtain ⟨c, ⟨cell, -, rfl⟩, rfl⟩ := ht
    exact ⟨rfl, rfl⟩

theorem pop_gains {s : Stack} (h : s.Rooted) : Gains s s.pop [] ∧ s.pop.Rooted := by
  unfold pop
  cases houter : s.outer with
  | nil => exact ⟨.of_eq rfl, h⟩
  | cons f fs =>
    rw [Rooted, houter] at h
    refine ⟨.of_perm ?_, ?_⟩
    · have hreceive := (Frame.texts_receive (f := f) h.1).append_right (textsOf fs)
      rw [texts, texts, frames, frames, houter]
      simp only [textsOf, List.flatMap_cons, ← List.append_assoc] at hreceive ⊢
      exact hreceive
    · have hcontainer : (f.receive s.top).container = f.container := by
        unfold Frame.receive
        dsimp only
        split <;> rfl
      rw [Rooted, hcontainer]
      exact h.2

theorem leave_gains {s : Stack} (h : s.Rooted) (n : Nat) :
    Gains s (s.leave n) (Block.textsIn (Leaf.paragraphBlocks s.leaf.lines)) ∧
      (s.leave n).Rooted ∧ (s.leave n).leaf = .closed := by
  induction n with
  | zero => exact ⟨s.closeLeaf_gains, h, rfl⟩
  | succ n ih =>
    obtain ⟨hgains, hrooted, hleaf⟩ := ih
    obtain ⟨hpop, hpopped⟩ := pop_gains hrooted
    refine ⟨hgains.after hpop, hpopped, ?_⟩
    rw [leave, pop]
    split
    · exact hleaf
    · exact hleaf

theorem enter_gains (s : Stack) (c : Container) : Gains s (s.enter c) [] := by
  refine .of_eq ?_
  rw [texts, texts, frames, frames, enter]
  simp only [textsOf, List.flatMap_cons, Frame.texts_beginContainer]
  rfl

theorem enter_rooted {s : Stack} {c : Container} (hc : c ≠ .document) (h : s.Rooted) :
    (s.enter c).Rooted := by
  have hcontainer : (s.top.beginContainer c).container = s.top.container := by
    unfold Frame.beginContainer
    split
    · split <;> rfl
    · rfl
  refine ⟨hc, ?_⟩
  rw [hcontainer]
  exact h

/-! ## one line -/

def SameFrames (s s' : Stack) : Prop := s'.top.container = s.top.container ∧ s'.outer = s.outer

theorem SameFrames.refl (s : Stack) : SameFrames s s := ⟨rfl, rfl⟩

theorem SameFrames.rooted (h : SameFrames s s') (hs : s.Rooted) : s'.Rooted := by
  rw [Rooted, h.1, h.2]
  exact hs

/-- no table is open, and the open paragraph is the rest of a line, if one is open -/
def Begins (l : Line) (s : Stack) : Prop :=
  s.leaf.isTable = false ∧ (s.leaf.lines = [] ∨ ∃ t : Line, t.TailOf l ∧ s.leaf.lines = [t])

theorem Begins.of_closed {l : Line} (h : s.leaf = .closed) : Begins l s := by
  rw [Begins, h]
  exact ⟨rfl, .inl rfl⟩

theorem noteBlank_gains (s : Stack) :
    Gains s s.noteBlank [] ∧ s.noteBlank.leaf = s.leaf ∧ SameFrames s s.noteBlank := by
  unfold noteBlank
  split
  · exact ⟨.of_eq rfl, rfl, .refl s⟩
  · exact ⟨.of_eq rfl, rfl, rfl, rfl⟩

theorem start_gains (s : Stack) (l : Line) (b : Start) :
    Gains s (s.start l b) [] ∧ (s.leaf = .closed →
      (s.start l b).leaf.isTable = false ∧ (s.start l b).leaf.lines = []) ∧
      SameFrames s (s.start l b) := by
  cases b with
  | fence f => exact ⟨.of_eq rfl, fun _ => ⟨rfl, rfl⟩, rfl, rfl⟩
  | html k =>
    rw [start]
    dsimp only
    split
    · have hbegin : Gains s { s.begin with leaf := .html k [l.text] } [] := .of_eq rfl
      exact ⟨.before hbegin (closeLeaf_gains _), fun _ => ⟨rfl, rfl⟩, rfl, rfl⟩
    · exact ⟨.of_eq rfl, fun _ => ⟨rfl, rfl⟩, rfl, rfl⟩
  | heading level text =>
    have hbegin : Gains s s.begin [] := .of_eq rfl
    refine ⟨.before hbegin (add_plain _ fun t ht => ?_), fun h => ?_, rfl, rfl⟩
    · cases List.mem_singleton.1 ht
      exact ⟨rfl, rfl⟩
    · exact ⟨congrArg Leaf.isTable h, congrArg Leaf.lines h⟩
  | rule =>
    have hbegin : Gains s s.begin [] := .of_eq rfl
    exact ⟨.before hbegin (add_plain _ nofun),
      fun h => ⟨congrArg Leaf.isTable h, congrArg Leaf.lines h⟩, rfl, rfl⟩

theorem fresh_gains (o : MarkdownSettings) (s : Stack) (l : Line) :
    Gains s (s.fresh o l) [] ∧ Begins l (s.fresh o l) ∧ SameFrames s (s.fresh o l) := by
  have hparagraph : Begins l { s.begin with leaf := .paragraph [l], underlined := false } :=
    ⟨rfl, .inr ⟨l, .refl l, rfl⟩⟩
  unfold fresh
  dsimp only
  split
  · obtain ⟨hgains, hleaf, hframes⟩ :=
      noteBlank_gains { s with leaf := .closed, underlined := false }
    exact ⟨.before (.of_eq rfl) hgains, .of_closed hleaf, hframes⟩
  · split
    · exact ⟨.of_eq rfl, ⟨rfl, .inl rfl⟩, rfl, rfl⟩
    · split
      · exact ⟨.of_eq rfl, hparagraph, rfl, rfl⟩
      · split
        · next b _ =>
          obtain ⟨hgains, hleaf, hframes⟩ :=
            start_gains { s with leaf := .closed, underlined := false } l b
          exact ⟨.before (.of_eq rfl) hgains, (hleaf rfl).imp_right .inl, hframes⟩
        · exact ⟨.of_eq rfl, hparagraph, rfl, rfl⟩

/-- what one line does to the open paragraph -/
inductive Turn (s : Stack) (l : Line) (s' : Stack) : Prop
  /-- it goes on -/
  | goOn {t : Line} (tail : t.TailOf l) (gains : Gains s s' [])
      (leaf : s'.leaf = .paragraph (t :: s.leaf.lines))
  /-- it is closed -/
  | close (gains : Gains s s' (Block.textsIn (Leaf.paragraphBlocks s.leaf.lines)))
      (begins : Begins l s')
  /-- it is closed but for its last line, which is the head of a table -/
  | table (gains : Gains s s' (Block.textsIn (Leaf.paragraphBlocks (s.leaf.lines.drop 1))))
      (table : s'.leaf.isTable = true)
  /-- it becomes a heading -/
  | underline (kept : (Content.ofLines s.leaf.lines).cutDefinitions.2.text.isEmpty = false)
      (gains : Gains s s' [(false, (Content.ofLines s.leaf.lines).cutDefinitions.2)])
      (leaf : s'.leaf = .closed)

/-- no paragraph is open before or after -/
theorem Turn.of_plain {l : Line} (h : s.leaf.lines = []) (gains : Gains s s' [])
    (begins : Begins l s') : Turn s l s' := by
  refine .close ?_ begins
  rw [h]
  exact gains

theorem goOn_turn {s : Stack} (h : s.leaf.isSolid = true) (l : Line) :
    Turn s l (s.goOn l) ∧ SameFrames s (s.goOn l) := by
  unfold goOn
  split
  · next f lines hleaf =>
    have hlines : s.leaf.lines = [] := by rw [hleaf]; rfl
    split
    · have hadd : Gains s (s.add [f.block (Fence.closedText lines.reverse)]) [] := by
        refine s.add_plain ?_
        simp only [Block.textsIn, texts_block, List.append_nil]
        exact nofun
      exact ⟨.of_plain hlines (.after hadd (.of_eq rfl)) (.of_closed rfl), rfl, rfl⟩
    · exact ⟨.of_plain hlines (.of_eq rfl) ⟨rfl, .inl rfl⟩, rfl, rfl⟩
  · next k lines hleaf =>
    have hlines : s.leaf.lines = [] := by rw [hleaf]; rfl
    have hclose := s.closeLeaf_gains
    rw [hlines] at hclose
    split
    · obtain ⟨hblank, hclosed, hframes⟩ := s.closeLeaf.noteBlank_gains
      exact ⟨.of_plain hlines (.before hclose hblank) (.of_closed hclosed), hframes⟩
    · dsimp only
      split
      · have hline : Gains s { s with leaf := .html k (l.text :: lines) } [] := .of_eq rfl
        exact ⟨.of_plain hlines (.before hline (closeLeaf_gains _)) (.of_closed rfl), rfl, rfl⟩
      · exact ⟨.of_plain hlines (.of_eq rfl) ⟨rfl, .inl rfl⟩, rfl, rfl⟩
  · next hfence hhtml =>
    cases hleaf : s.leaf with
    | fenced f lines => exact absurd hleaf (hfence f lines)
    | html k lines => exact absurd hleaf (hhtml k lines)
    | closed | paragraph _ | indentedCode _ _ | table _ _ _ =>
      rw [hleaf] at h
      cases h

theorem goOnParagraph_turn (o : MarkdownSettings) {s : Stack} {lines : List Line}
    (hleaf : s.leaf = .paragraph lines) (l : Line) :
    Turn s l (s.goOnParagraph o lines l) ∧ SameFrames s (s.goOnParagraph o lines l) := by
  have hlines : s.leaf.lines = lines := by rw [hleaf]; rfl
  unfold goOnParagraph
  split
  · obtain ⟨hblank, hclosed, hframes⟩ := s.closeLeaf.noteBlank_gains
    exact ⟨.close (s.closeLeaf_gains.after hblank) (.of_closed hclosed), hframes⟩
  · split
    · next columns head _ =>
      exact ⟨.table (hlines ▸ (s.add_gains _).after (.of_eq rfl)) rfl, rfl, rfl⟩
    · split
      · next level _ =>
        rw [underline]
        dsimp only
        split
        · next hempty =>
          refine ⟨.close ?_ ⟨rfl, .inr ⟨l, .refl l, rfl⟩⟩, rfl, rfl⟩
          rw [hlines, textsIn_paragraphBlocks, if_pos hempty]
          exact (s.add_plain (by rw [Block.textsIn_definitions]; exact nofun)).after (.of_eq rfl)
        · next hkept =>
          refine ⟨.underline (by rw [hlines]; simpa using hkept) ?_ rfl, rfl, rfl⟩
          rw [hlines]
          exact (s.add_plain (by rw [Block.textsIn_definitions]; exact nofun)).before
            ((add_gains _ [.heading level _]).after (.of_eq rfl))
      · split
        · next b _ =>
          obtain ⟨hgains, hclosed, hframes⟩ := s.closeLeaf.start_gains l b
          exact ⟨.close (s.closeLeaf_gains.after hgains) ((hclosed rfl).imp_right .inl), hframes⟩
        · exact ⟨.goOn (.refl l) (.of_eq rfl) (by rw [hlines]), rfl, rfl⟩

theorem goOnCode_turn (o : MarkdownSettings) {s : Stack} {lines : List Text} {blanks : Nat}
    (hleaf : s.leaf = .indentedCode lines blanks) (l : Line) :
    Turn s l (s.goOnCode o lines blanks l) ∧ SameFrames s (s.goOnCode o lines blanks l) := by
  have hlines : s.leaf.lines = [] := by rw [hleaf]; rfl
  unfold goOnCode
  split
  · exact ⟨.of_plain hlines (.of_eq rfl) ⟨rfl, .inl rfl⟩, rfl, rfl⟩
  · split
    · obtain ⟨hblank, -, hframes⟩ := s.noteBlank_gains
      exact ⟨.of_plain hlines (hblank.after (.of_eq rfl)) ⟨rfl, .inl rfl⟩, hframes⟩
    · obtain ⟨hgains, hbegins, hframes⟩ := s.closeLeaf.fresh_gains o l
      exact ⟨.close (s.closeLeaf_gains.after hgains) hbegins, hframes⟩

theorem goOnTable_turn (o : MarkdownSettings) {s : Stack} {columns : List Alignment}
    {head : List Text} {rows : List (List Text)} (hleaf : s.leaf = .table columns head rows)
    (l : Line) : Turn s l (s.goOnTable o columns head rows l) ∧
      SameFrames s (s.goOnTable o columns head rows l) := by
  have hlines : s.leaf.lines = [] := by rw [hleaf]; rfl
  unfold goOnTable
  split
  · obtain ⟨hgains, hbegins, hframes⟩ := s.closeLeaf.fresh_gains o l
    exact ⟨.close (s.closeLeaf_gains.after hgains) hbegins, hframes⟩
  · refine ⟨.table ?_ rfl, rfl, rfl⟩
    rw [hlines]
    exact .of_eq rfl

theorem readInner_turn (o : MarkdownSettings) {s : Stack} (h : s.leaf.isSolid = false) (l : Line) :
    Turn s l (s.readInner o l) ∧ SameFrames s (s.readInner o l) := by
  unfold readInner
  split
  · next hleaf =>
    obtain ⟨hgains, hbegins, hframes⟩ := s.fresh_gains o l
    exact ⟨.of_plain (by rw [hleaf]; rfl) hgains hbegins, hframes⟩
  · next lines hleaf =>
    obtain ⟨hturn, hframes⟩ :=
      goOnParagraph_turn o (s := { s with underlined := false }) hleaf l
    refine ⟨?_, hframes⟩
    cases hturn with
    | goOn tail gains leaf => exact .goOn tail gains leaf
    | close gains begins => exact .close gains begins
    | table gains table => exact .table gains table
    | underline kept gains leaf => exact .underline kept gains leaf
  · next hleaf => exact goOnCode_turn o hleaf l
  · next hleaf => exact goOnTable_turn o hleaf l
  · next hclosed hparagraph hcode htable =>
    cases hleaf : s.leaf with
    | closed => exact absurd hleaf hclosed
    | paragraph lines => exact absurd hleaf (hparagraph lines)
    | indentedCode lines blanks => exact absurd hleaf (hcode lines blanks)
    | table columns head rows => exact absurd hleaf (htable columns head rows)
    | fenced f lines | html k lines =>
      rw [hleaf] at h
      cases h

/-! ## containers -/

theorem follow_frames (fs : List Frame) (l : Line) :
    textsOf ((follow fs l).1 ++ (follow fs l).2.1) = textsOf fs ∧
      List.Forall₂ (fun f g : Frame => f.container = .document → g.container = .document)
        ((follow fs l).1 ++ (follow fs l).2.1) fs ∧ (follow fs l).2.2.TailOf l := by
  induction fs generalizing l with
  | nil => exact ⟨rfl, .nil, .refl l⟩
  | cons f fs ih =>
    rw [follow]
    split
    · exact ⟨rfl, List.forall₂_same.2 fun _ _ => id, .refl l⟩
    · next c t h =>
      obtain ⟨htail, hdocument⟩ := Container.continue?_tail h
      obtain ⟨htexts, hcontainers, hrest⟩ := ih t
      refine ⟨?_, .cons hdocument hcontainers, hrest.trans htail⟩
      simp only [textsOf, List.cons_append, List.flatMap_cons] at htexts ⊢
      rw [htexts]

theorem RootedIn.mono {f g : Frame} {fs gs : List Frame}
    (h : List.Forall₂ (fun f g : Frame => f.container = .document → g.container = .document)
      (f :: fs) (g :: gs)) (hg : RootedIn g.container gs) : RootedIn f.container fs := by
  induction fs generalizing f g gs with
  | nil => exact True.intro
  | cons f' fs ih =>
    obtain ⟨hfirst, hrest⟩ := List.forall₂_cons.1 h
    cases gs with
    | nil => cases hrest
    | cons g' gs => exact ⟨fun hf => hg.1 (hfirst hf), ih hrest hg.2⟩

/-- the state after a line went on with containers -/
theorem withFrames_follow {s : Stack} (h : s.Rooted) (l : Line) {kept left : List Frame} {t : Line}
    (hfollow : follow (s.outer.reverse ++ [s.top]) l = (kept, left, t)) :
    Gains s (s.withFrames (kept ++ left)) [] ∧ (s.withFrames (kept ++ left)).Rooted ∧
      (s.withFrames (kept ++ left)).leaf = s.leaf ∧ t.TailOf l := by
  obtain ⟨htexts, hcontainers, htail⟩ := follow_frames (s.outer.reverse ++ [s.top]) l
  rw [hfollow] at htexts hcontainers htail
  have hcontainers := List.rel_reverse hcontainers
  have hreversed : (s.outer.reverse ++ [s.top]).reverse = s.frames := by
    rw [List.reverse_append, List.reverse_reverse]
    rfl
  rw [hreversed] at hcontainers
  dsimp only at hcontainers
  unfold withFrames
  split
  · exact ⟨.of_eq rfl, h, rfl, htail⟩
  · next top outer hreverse =>
    rw [hreverse] at hcontainers
    refine ⟨.of_perm ?_, RootedIn.mono hcontainers h, rfl, htail⟩
    have hperm := (List.reverse_perm (kept ++ left)).flatMap_right (Block.textsIn ·.blocks)
    have hframes := (List.reverse_perm (s.outer.reverse ++ [s.top])).flatMap_right
      (Block.textsIn ·.blocks)
    rw [hreversed] at hframes
    rw [hreverse] at hperm
    exact hperm.trans ((List.Perm.of_eq htexts).trans hframes.symm)

theorem openMore_gains (o : MarkdownSettings) (n : Nat) {s : Stack} (h : s.Rooted)
    (hleaf : s.leaf = .closed) (l : Line) : Gains s (openMore o n s l).1 [] ∧
      (openMore o n s l).1.Rooted ∧ (openMore o n s l).1.leaf = .closed ∧
      (openMore o n s l).2.TailOf l := by
  induction n generalizing s l with
  | zero => exact ⟨.of_eq rfl, h, hleaf, .refl l⟩
  | succ n ih =>
    rw [openMore]
    split
    · next c t hopen =>
      obtain ⟨htail, hc⟩ := Container.open?_tail hopen
      obtain ⟨hgains, hrooted, hclosed, hrest⟩ := ih (enter_rooted hc h) hleaf t
      exact ⟨(s.enter_gains c).before hgains, hrooted, hclosed, hrest.trans htail⟩
    · exact ⟨.of_eq rfl, h, hleaf, .refl l⟩

theorem Begins.of_tail {t l : Line} (ht : t.TailOf l) (h : Begins t s) : Begins l s := by
  refine h.imp_right fun h => ?_
  rcases h with h | ⟨u, hu, h⟩
  · exact .inl h
  · exact .inr ⟨u, hu.trans ht, h⟩

theorem Turn.of_tail {t l : Line} (ht : t.TailOf l) (h : Turn s t s') : Turn s l s' := by
  cases h with
  | goOn tail gains leaf => exact .goOn (tail.trans ht) gains leaf
  | close gains begins => exact .close gains (begins.of_tail ht)
  | table gains table => exact .table gains table
  | underline kept gains leaf => exact .underline kept gains leaf

theorem Turn.of_gains {l : Line} (hgains : Gains s s' []) (hleaf : s'.leaf = s.leaf)
    (h : Turn s' l s'') : Turn s l s'' := by
  cases h with
  | goOn tail gains leaf => exact .goOn tail (hgains.before gains) (hleaf ▸ leaf)
  | close gains begins =>
    rw [hleaf] at gains
    exact .close (hgains.before gains) begins
  | table gains table =>
    rw [hleaf] at gains
    exact .table (hgains.before gains) table
  | underline kept gains leaf =>
    rw [hleaf] at kept gains
    exact .underline kept (hgains.before gains) leaf

theorem addLazy_turn (s : Stack) (l : Line) :
    Turn s l (s.addLazy l) ∧ SameFrames s (s.addLazy l) := by
  unfold addLazy
  split
  · next lines hleaf =>
    refine ⟨.goOn (.refl l) (.of_eq rfl) ?_, rfl, rfl⟩
    rw [hleaf]
    rfl
  · next hno =>
    refine ⟨.goOn (.refl l) (.of_eq rfl) ?_, rfl, rfl⟩
    cases hleaf : s.leaf with
    | paragraph lines => exact absurd hleaf (hno lines)
    | closed | fenced _ _ | html _ _ | indentedCode _ _ | table _ _ _ => rfl

/-- each line goes on with the open paragraph or closes it -/
theorem readLine_turn (o : MarkdownSettings) {s : Stack} (h : s.Rooted) (l : Line) :
    Turn s l (s.readLine o l) ∧ (s.readLine o l).Rooted := by
  obtain ⟨kept, left, t, hfollow⟩ :
      ∃ kept left t, follow (s.outer.reverse ++ [s.top]) l = (kept, left, t) := ⟨_, _, _, rfl⟩
  obtain ⟨hgains, hrooted, hleaf, htail⟩ := withFrames_follow h l hfollow
  suffices hturn : Turn (s.withFrames (kept ++ left)) t (s.readLine o l) ∧ (s.readLine o l).Rooted by
    exact ⟨(hturn.1.of_gains hgains hleaf).of_tail htail, hturn.2⟩
  unfold readLine
  rw [hfollow]
  dsimp only
  generalize s.withFrames (kept ++ left) = s' at hrooted ⊢
  split
  · next hsolid =>
    obtain ⟨hturn, hframes⟩ := goOn_turn (Bool.and_eq_true_iff.1 hsolid).2 t
    exact ⟨hturn, hframes.rooted hrooted⟩
  · next hsolid =>
    split
    · next c u hopen =>
      obtain ⟨hu, hc⟩ := Container.open?_tail hopen
      obtain ⟨hclose, hclosed, hleaf⟩ := leave_gains hrooted left.length
      obtain ⟨hmore, hopened, -, hv⟩ :=
        openMore_gains o u.rest.length (enter_rooted hc hclosed) hleaf u
      obtain ⟨hfresh, hbegins, hframes⟩ := fresh_gains o
        (openMore o u.rest.length ((s'.leave left.length).enter c) u).1
        (openMore o u.rest.length ((s'.leave left.length).enter c) u).2
      exact ⟨.close (((hclose.after (enter_gains _ c)).after hmore).after hfresh)
        (hbegins.of_tail (hv.trans hu)), hframes.rooted hopened⟩
    · split
      · next hwhole =>
        have hplain : s'.leaf.isSolid = false := by simpa [hwhole] using hsolid
        obtain ⟨hturn, hframes⟩ := readInner_turn o hplain t
        exact ⟨hturn, hframes.rooted hrooted⟩
      · split
        · obtain ⟨hturn, hframes⟩ := addLazy_turn s' t
          exact ⟨hturn, hframes.rooted hrooted⟩
        · obtain ⟨hclose, hclosed, -⟩ := leave_gains hrooted left.length
          obtain ⟨hfresh, hbegins, hframes⟩ := fresh_gains o (s'.leave left.length) t
          exact ⟨.close (hclose.after hfresh) hbegins, hframes.rooted hclosed⟩

end Stack

end MarkdownModule.Markdown

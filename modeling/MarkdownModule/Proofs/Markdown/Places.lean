import MarkdownModule.Proofs.Markdown.Definitions
import MarkdownModule.Proofs.Markdown.Texts
import MarkdownModule.Proofs.Text.Split
import MarkdownModule.Markdown.Outline
import Mathlib.Data.List.Induction

/-!
# The places of line endings

The line endings in the texts of a document stand at different places, and each of these is the place
of a line ending in the document.

* `Stack.readLines_inside`    the line endings that texts of several lines hold
* `readDocument_lineEnds`     those of a document
-/

namespace MarkdownModule.Markdown

/-! ## texts of lines -/

def lineEndsOf (ts : List (Bool × Content)) : List Nat := ts.flatMap (·.2.lineEnds)

theorem lineEnds_cutDefinitions (lines : List Line) :
    (Content.ofLines lines).cutDefinitions.2.lineEnds.Subperm ((lines.drop 1).map (·.stop)) := by
  have h : (Content.ofLines lines).cutDefinitions.2.lineEnds.Sublist
      ((lines.drop 1).reverse.map (·.stop)) := List.drop_sublist _ _
  rw [List.map_reverse] at h
  exact h.subperm.trans (List.reverse_perm _).subperm

theorem lineEnds_paragraphBlocks (lines : List Line) :
    (lineEndsOf (Block.textsIn (Leaf.paragraphBlocks lines))).Subperm
      ((lines.drop 1).map (·.stop)) := by
  rw [Stack.textsIn_paragraphBlocks]
  split
  · exact List.nil_subperm
  · rw [lineEndsOf, List.flatMap_singleton]
    exact lineEnds_cutDefinitions lines

theorem count_intercalate {c : Char} {ts : List Text} (h : ∀ t ∈ ts, c ∉ t) :
    (List.intercalate [c] ts).count c = ts.length - 1 := by
  induction ts with
  | nil => rfl
  | cons t ts ih =>
    obtain ⟨ht, hts⟩ := List.forall_mem_cons.1 h
    have hcount := List.count_eq_zero.2 ht
    cases ts with
    | nil => simpa [List.intercalate] using hcount
    | cons u ts =>
      have ih := ih hts
      rw [List.length_cons, Nat.add_sub_cancel] at ih
      rw [List.intercalate_cons_cons, List.count_append, List.count_append, hcount, ih,
        List.count_singleton_self, List.length_cons, List.length_cons]
      omega

theorem length_lineEnds_cutDefinitions {lines : List Line} (h : ∀ l ∈ lines, '\n' ∉ l.rest) :
    (Content.ofLines lines).cutDefinitions.2.lineEnds.length =
      (Content.ofLines lines).cutDefinitions.2.text.count '\n' := by
  have htexts : ∀ t ∈ lines.reverse.map (·.text), '\n' ∉ t := by
    intro t ht
    obtain ⟨l, hl, rfl⟩ := List.mem_map.1 ht
    rw [Line.text, List.mem_append, List.mem_replicate]
    rintro (hspace | hrest)
    · exact absurd hspace.2 (by decide)
    · exact h l (List.mem_reverse.1 hl) hrest
  have hcount : (Content.ofLines lines).text.count '\n' =
      (Content.ofLines lines).lineEnds.length := by
    have hlength := count_intercalate htexts
    rw [List.length_map, List.length_reverse] at hlength
    rw [Content.ofLines]
    dsimp only
    rw [hlength, List.length_map, List.length_reverse, List.length_drop]
  have hle := (Definition.readSome_suffix (Content.ofLines lines).text.length
    (Content.ofLines lines).text).sublist.count_le '\n'
  rw [hcount] at hle
  rw [Content.cutDefinitions, Definition.readAll]
  dsimp only
  rw [List.length_drop]
  omega

/-! ## one line -/

namespace Stack

/-- the places of the line endings in the texts and in the open paragraph, but for its last line -/
def inside (s : Stack) : List Nat := lineEndsOf s.texts ++ (s.leaf.lines.drop 1).map (·.stop)

/-- the places of the line endings in the texts and in the open paragraph -/
def held (s : Stack) : List Nat := lineEndsOf s.texts ++ s.leaf.lines.map (·.stop)

variable {s s' : Stack} {l : Line}

theorem inside_subperm_held (s : Stack) : s.inside.Subperm s.held :=
  ((List.Sublist.refl _).append ((List.drop_sublist 1 _).map _)).subperm

theorem Gains.lineEnds {new : List (Bool × Content)} (h : Gains s s' new) :
    (lineEndsOf s'.texts).Perm (lineEndsOf new ++ lineEndsOf s.texts) := by
  obtain ⟨plain, hplain, hperm⟩ := h
  have hnil : lineEndsOf plain = [] := List.flatMap_eq_nil_iff.2 fun t ht => (hplain t ht).2
  have hperm := hperm.flatMap_right (·.2.lineEnds)
  rw [List.flatMap_append, List.flatMap_append] at hperm
  rw [lineEndsOf] at hnil
  rw [hnil] at hperm
  exact hperm

theorem Gains.inside {new : List (Bool × Content)} (h : Gains s s' new)
    (hnew : (lineEndsOf new).Subperm ((s.leaf.lines.drop 1).map (·.stop))) :
    (lineEndsOf s'.texts).Subperm s.inside :=
  (h.lineEnds.trans List.perm_append_comm).subperm.trans ((List.subperm_append_left _).2 hnew)

/-- the last line of the open paragraph stays the last one, or its line ending is in no text -/
theorem Turn.held (h : Turn s l s') :
    ((∃ t : Line, t.TailOf l ∧ s'.leaf = .paragraph (t :: s.leaf.lines)) ∧
      s'.held.Perm (l.stop :: s.held) ∧ s'.inside.Perm s.held) ∨
    (s'.held.Subperm (l.stop :: s.inside) ∧ s'.inside.Subperm s.inside) := by
  cases h with
  | @goOn t tail gains leaf =>
    have hperm := gains.lineEnds
    rw [show lineEndsOf [] = [] from rfl, List.nil_append] at hperm
    refine .inl ⟨⟨t, tail, leaf⟩, ?_, ?_⟩
    · rw [Stack.held, Stack.held, leaf]
      refine (hperm.append_right _).trans ?_
      rw [Leaf.lines, List.map_cons, tail.2]
      exact List.perm_middle
    · rw [inside, Stack.held, leaf]
      exact hperm.append_right _
  | close gains begins =>
    have htexts := gains.inside (lineEnds_paragraphBlocks s.leaf.lines)
    refine .inr ⟨?_, ?_⟩
    · rw [Stack.held]
      rcases begins.2 with hnil | ⟨t, ht, hlines⟩
      · rw [hnil, List.map_nil, List.append_nil]
        exact htexts.trans (List.sublist_cons_self _ _).subperm
      · rw [hlines, List.map_singleton, ht.2]
        exact (List.perm_append_singleton _ _).subperm.trans ((List.subperm_cons _).2 htexts)
    · rw [inside]
      rcases begins.2 with hnil | ⟨t, ht, hlines⟩
      · rw [hnil, List.drop_nil, List.map_nil, List.append_nil]
        exact htexts
      · rw [hlines, List.drop_one, List.tail_cons, List.map_nil, List.append_nil]
        exact htexts
  | table gains table =>
    have hsub : (((s.leaf.lines.drop 1).drop 1).map (·.stop)).Sublist
        ((s.leaf.lines.drop 1).map (·.stop)) := (List.drop_sublist 1 _).map _
    have htexts := gains.inside ((lineEnds_paragraphBlocks _).trans hsub.subperm)
    have hlines := Leaf.lines_of_isTable table
    refine .inr ⟨?_, ?_⟩
    · rw [Stack.held, hlines, List.map_nil, List.append_nil]
      exact htexts.trans (List.sublist_cons_self _ _).subperm
    · rw [inside, hlines, List.drop_nil, List.map_nil, List.append_nil]
      exact htexts
  | underline kept gains leaf =>
    have htexts := gains.inside (by
      rw [lineEndsOf, List.flatMap_singleton]
      exact lineEnds_cutDefinitions s.leaf.lines)
    have hlines : s'.leaf.lines = [] := by
      rw [leaf]
      rfl
    refine .inr ⟨?_, ?_⟩
    · rw [Stack.held, hlines, List.map_nil, List.append_nil]
      exact htexts.trans (List.sublist_cons_self _ _).subperm
    · rw [inside, hlines, List.drop_nil, List.map_nil, List.append_nil]
      exact htexts

/-- no line holds a line ending, and the texts of paragraphs have as many places as line endings -/
structure Placed (s : Stack) : Prop where
  lines : ∀ l ∈ s.leaf.lines, '\n' ∉ l.rest
  texts : ∀ c, (true, c) ∈ s.texts → c.lineEnds.length = c.text.count '\n'

theorem Gains.placed {new : List (Bool × Content)} (h : Gains s s' new)
    (hnew : ∀ c, (true, c) ∈ new → c.lineEnds.length = c.text.count '\n')
    (hs : ∀ c, (true, c) ∈ s.texts → c.lineEnds.length = c.text.count '\n') (c : Content)
    (hc : (true, c) ∈ s'.texts) : c.lineEnds.length = c.text.count '\n' := by
  obtain ⟨plain, hplain, hperm⟩ := h
  have hmem := hperm.subset hc
  rw [List.mem_append, List.mem_append] at hmem
  rcases hmem with (hmem | hmem) | hmem
  · cases (hplain _ hmem).1
  · exact hnew c hmem
  · exact hs c hmem

theorem placed_paragraphBlocks {lines : List Line} (h : ∀ l ∈ lines, '\n' ∉ l.rest) (c : Content)
    (hc : (true, c) ∈ Block.textsIn (Leaf.paragraphBlocks lines)) :
    c.lineEnds.length = c.text.count '\n' := by
  rw [textsIn_paragraphBlocks] at hc
  split at hc
  · cases hc
  · cases List.mem_singleton.1 hc
    exact length_lineEnds_cutDefinitions h

theorem Turn.placed (h : Turn s l s') (hl : '\n' ∉ l.rest) (hs : s.Placed) : s'.Placed := by
  have htail : ∀ {t : Line}, t.TailOf l → '\n' ∉ t.rest := fun ht hmem => hl (ht.1.subset hmem)
  cases h with
  | goOn tail gains leaf =>
    refine ⟨?_, gains.placed nofun hs.texts⟩
    rw [leaf]
    exact List.forall_mem_cons.2 ⟨htail tail, hs.lines⟩
  | close gains begins =>
    refine ⟨?_, gains.placed (placed_paragraphBlocks hs.lines) hs.texts⟩
    rcases begins.2 with hnil | ⟨t, ht, hlines⟩
    · rw [hnil]
      exact nofun
    · rw [hlines]
      exact List.forall_mem_singleton.2 (htail ht)
  | table gains table =>
    refine ⟨?_, gains.placed (placed_paragraphBlocks fun m hm =>
      hs.lines m (List.mem_of_mem_drop hm)) hs.texts⟩
    rw [Leaf.lines_of_isTable table]
    exact nofun
  | underline kept gains leaf =>
    refine ⟨?_, gains.placed (fun c hc => ?_) hs.texts⟩
    · rw [leaf]
      exact nofun
    · cases List.mem_singleton.1 hc

theorem closeLeaf_outer (s : Stack) (n : Nat) : (s.leave n).outer = s.outer.drop n := by
  induction n with
  | zero => rfl
  | succ n ih =>
    rw [leave, pop]
    split
    · next h =>
      rw [h] at ih ⊢
      rw [← List.drop_drop, ← ih, List.drop_nil]
    · next f fs h =>
      rw [h] at ih
      rw [← List.drop_drop, ← ih]
      rfl

/-! ## all lines -/

/-- the state after lines -/
theorem readLines_turns (o : MarkdownSettings) {ls : List Line} (hls : ∀ l ∈ ls, '\n' ∉ l.rest) :
    (ls.foldl (readLine o) {}).Rooted ∧ (ls.foldl (readLine o) {}).Placed ∧
      (ls.foldl (readLine o) {}).held.Subperm (ls.map (·.stop)) ∧
      (ls.foldl (readLine o) {}).inside.Subperm (ls.dropLast.map (·.stop)) := by
  induction ls using List.reverseRecOn with
  | nil => exact ⟨True.intro, ⟨nofun, nofun⟩, List.nil_subperm, List.nil_subperm⟩
  | append_singleton ls l ih =>
    obtain ⟨hls, hl⟩ := List.forall_mem_append.1 hls
    obtain ⟨hrooted, hplaced, hheld, -⟩ := ih hls
    obtain ⟨hturn, hrooted⟩ := readLine_turn o hrooted l
    rw [List.foldl_concat, List.dropLast_concat, List.map_append, List.map_singleton]
    refine ⟨hrooted, hturn.placed (hl l (List.mem_singleton_self l)) hplaced, ?_, ?_⟩
    · refine List.Subperm.trans ?_ (List.perm_append_singleton _ _).symm.subperm
      rcases hturn.held with ⟨-, hperm, -⟩ | ⟨hsub, -⟩
      · exact hperm.subperm.trans ((List.subperm_cons _).2 hheld)
      · exact hsub.trans ((List.subperm_cons _).2 ((inside_subperm_held _).trans hheld))
    · rcases hturn.held with ⟨-, -, hperm⟩ | ⟨-, hsub⟩
      · exact hperm.subperm.trans hheld
      · exact hsub.trans ((inside_subperm_held _).trans hheld)

theorem lines_afterLast (l : Leaf) : l.afterLast.lines = l.lines := by
  cases l with
  | html k lines =>
    rw [Leaf.afterLast]
    split <;> rfl
  | closed | paragraph _ | indentedCode _ _ | fenced _ _ | table _ _ _ => rfl

/-- the texts of blocks when all containers are closed -/
theorem leave_texts {s : Stack} (h : s.Rooted) :
    Gains s (s.leave s.outer.length)
      (Block.textsIn (Leaf.paragraphBlocks s.leaf.lines)) ∧
    (Block.textsIn (s.leave s.outer.length).top.blocks.reverse).Perm
      (s.leave s.outer.length).texts := by
  refine ⟨(leave_gains h _).1, (Block.textsIn_reverse _).trans ?_⟩
  rw [texts, frames, closeLeaf_outer, List.drop_length, textsOf, List.flatMap_singleton]

end Stack

/-! ## documents -/

theorem stops_place (start : Nat) (s : Text) :
    (Line.place start (Text.splitOn '\n' s)).dropLast.map (·.stop) = lineEndsFrom start s := by
  induction s generalizing start with
  | nil => rfl
  | cons d r ih =>
    have hne : ∀ i, Line.place i (Text.splitOn '\n' r) ≠ [] := by
      intro i
      obtain ⟨w, ws, hws⟩ := List.exists_cons_of_ne_nil (Text.splitOn_ne_nil '\n' r)
      rw [hws]
      exact List.cons_ne_nil _ _
    rw [Text.splitOn, lineEndsFrom]
    split
    · next hd =>
      rw [Line.place, List.dropLast_cons_of_ne_nil (hne _), List.map_cons, hd, ← ih]
      rfl
    · obtain ⟨w, ws, hws⟩ := List.exists_cons_of_ne_nil (Text.splitOn_ne_nil '\n' r)
      have ih := ih (start + d.utf8Size)
      rw [hws] at ih ⊢
      dsimp only
      rw [← ih, Line.place, Line.place, Text.byteSize_cons, ← Nat.add_assoc]
      cases ws <;> rfl

theorem rest_place {start : Nat} {ts : List Text} {l : Line} (h : l ∈ Line.place start ts) :
    l.rest ∈ ts := by
  induction ts generalizing start with
  | nil => cases h
  | cons t ts ih =>
    rcases List.mem_cons.1 h with rfl | h
    · exact List.mem_cons_self
    · exact List.mem_cons_of_mem t (ih h)

theorem rest_linesFrom {start : Nat} {s : Text} {l : Line} (h : l ∈ linesFrom start s) :
    '\n' ∉ l.rest := by
  have hplace : l ∈ Line.place start (Text.splitOn '\n' s) := by
    unfold linesFrom at h
    dsimp only at h
    split at h
    · exact List.dropLast_subset _ h
    · exact h
  exact Text.not_mem_of_mem_splitOn (rest_place hplace)

theorem stops_linesFrom (start : Nat) (s : Text) :
    ((linesFrom start s).dropLast.map (·.stop)).Sublist (lineEndsFrom start s) := by
  rw [← stops_place, linesFrom]
  refine List.Sublist.map _ ?_
  split
  · exact List.dropLast_sublist _
  · exact .refl _

theorem readBlocksFrom_lineEnds (o : MarkdownSettings) (start : Nat) (s : Text) :
    (lineEndsOf (Block.textsIn (readBlocksFrom o start s))).Subperm (lineEndsFrom start s) ∧
      ∀ c, (true, c) ∈ Block.textsIn (readBlocksFrom o start s) →
        c.lineEnds.length = c.text.count '\n' := by
  have hrests : ∀ l ∈ linesFrom start s, '\n' ∉ l.rest := fun l => rest_linesFrom
  obtain ⟨hrooted, hplaced, -, hinside⟩ := Stack.readLines_turns o hrests
  unfold readBlocksFrom
  generalize (linesFrom start s).foldl (Stack.readLine o) {} = stack at hrooted hplaced hinside ⊢
  dsimp only
  obtain ⟨stack', hstack, htexts, hrooted', hlines⟩ : ∃ stack', (if Text.endsWith '\n' s then
      { stack with leaf := stack.leaf.afterLast } else stack) = stack' ∧
      stack'.texts = stack.texts ∧ stack'.Rooted ∧ stack'.leaf.lines = stack.leaf.lines := by
    refine ⟨_, rfl, ?_⟩
    split
    · exact ⟨rfl, hrooted, Stack.lines_afterLast stack.leaf⟩
    · exact ⟨rfl, hrooted, rfl⟩
  rw [hstack]
  obtain ⟨hgains, hperm⟩ := Stack.leave_texts hrooted'
  have hends := hgains.inside (lineEnds_paragraphBlocks stack'.leaf.lines)
  rw [Stack.inside, hlines, htexts] at hends
  refine ⟨((hperm.flatMap_right _).subperm.trans hends).trans
    (hinside.trans (stops_linesFrom start s).subperm), fun c hc => ?_⟩
  refine hgains.placed (fun d hd => ?_) (htexts ▸ hplaced.texts) c (hperm.subset hc)
  exact Stack.placed_paragraphBlocks (hlines ▸ hplaced.lines) d hd

/-- the line endings in the texts of a document are different line endings of the document -/
theorem readDocument_lineEnds (o : MarkdownSettings) (s : Text) :
    (lineEndsOf (Block.textsIn (readDocument o s))).Subperm (lineEndsFrom 0 s) ∧
      ∀ c, (true, c) ∈ Block.textsIn (readDocument o s) →
        c.lineEnds.length = c.text.count '\n' := by
  unfold readDocument
  split
  · exact readBlocksFrom_lineEnds o 3 _
  · exact readBlocksFrom_lineEnds o 0 s

theorem lineEndsFrom_le (start : Nat) (s : Text) : ∀ place ∈ lineEndsFrom start s, start ≤ place := by
  induction s generalizing start with
  | nil => exact nofun
  | cons c r ih =>
    have ih := fun place hplace => Nat.le_trans (Nat.le_add_right start c.utf8Size)
      (ih (start + c.utf8Size) place hplace)
    rw [lineEndsFrom]
    split
    · exact List.forall_mem_cons.2 ⟨Nat.le_refl _, ih⟩
    · exact ih

theorem nodup_lineEndsFrom (start : Nat) (s : Text) : (lineEndsFrom start s).Nodup := by
  induction s generalizing start with
  | nil => exact List.nodup_nil
  | cons c r ih =>
    rw [lineEndsFrom]
    split
    · refine List.nodup_cons.2 ⟨fun hmem => ?_, ih _⟩
      have hle := lineEndsFrom_le _ _ _ hmem
      have hsize := c.utf8Size_pos
      omega
    · exact ih _

end MarkdownModule.Markdown

import MarkdownModule.Proofs.Markdown.Marked.Reading

/-!
# Documents with backslashes

A document with a backslash before each line ending in a text of a paragraph has the blocks that it has
without, but for the backslashes in their texts.

* `Stack.Turn.ends`               what one line does to the open paragraph
* `Stack.Marked.readLines`        all lines
-/

namespace MarkdownModule.Markdown

open Content (plain broken)

namespace Stack

variable {breaks : Nat → Bool} {o : MarkdownSettings} {s s' : Stack} {l : Line}

/-! ## one line -/

/-- lines whose marked line endings all stand in the texts that they come to -/
theorem closes_of_texts {lines : List Line} (hlines : ∀ l ∈ lines, '\n' ∉ l.rest)
    (hnodup : (lines.map (·.stop)).Nodup)
    (hin : ∀ l ∈ lines, breaks l.stop = true →
      l.stop ∈ lineEndsOf (Block.textsIn (Leaf.paragraphBlocks lines)))
    (hno : ∀ c, (true, c) ∈ Block.textsIn (Leaf.paragraphBlocks lines) →
      Definition.read? (c.broken breaks).text = none) : Closes breaks lines := by
  rw [textsIn_paragraphBlocks] at hin hno
  split at hin
  · refine .of_unmarked hlines hnodup fun l hl => eq_false_of_ne_true fun hmark => ?_
    exact absurd (hin l hl hmark) List.not_mem_nil
  · next hempty =>
    rw [if_neg hempty] at hno
    refine .of_marked hlines hnodup (fun l hl hmark => ?_) (hno _ (List.mem_singleton_self _))
    have hmem := hin l hl hmark
    rw [lineEndsOf, List.flatMap_singleton] at hmem
    exact hmem

/-- a line ending of the open paragraph that is held after it was closed is in the texts that it came
to -/
theorem Gains.mem_new {new : List (Bool × Content)} (h : Gains s s' new)
    (hnodup : (l.stop :: s.held).Nodup)
    (hlines : s'.leaf.lines = [] ∨ ∃ t : Line, t.TailOf l ∧ s'.leaf.lines = [t]) {m : Line}
    (hm : m ∈ s.leaf.lines) (hheld : m.stop ∈ s'.held) : m.stop ∈ lineEndsOf new := by
  obtain ⟨hl, hnodup⟩ := List.nodup_cons.1 hnodup
  have hstop : m.stop ∈ s.leaf.lines.map (·.stop) := List.mem_map_of_mem hm
  have hother : m.stop ≠ l.stop := fun e => hl (e ▸ List.mem_append_right _ hstop)
  have hbefore : m.stop ∉ lineEndsOf s.texts := fun hmem =>
    (List.nodup_append.1 hnodup).2.2 _ hmem _ hstop rfl
  rcases List.mem_append.1 hheld with hmem | hmem
  · exact (List.mem_append.1 (h.lineEnds.subset hmem)).resolve_right hbefore
  · rcases hlines with hnil | ⟨t, ht, hone⟩
    · rw [hnil] at hmem
      exact absurd hmem List.not_mem_nil
    · rw [hone, List.map_singleton, List.mem_singleton, ht.2] at hmem
      exact absurd hmem hother

/-- what one line does to the open paragraph, if it loses no marked line ending -/
theorem Turn.ends (h : Turn s l s') (hplaced : s.Placed) (hnodup : (l.stop :: s.held).Nodup)
    (hkeep : ∀ place ∈ l.stop :: s.held, breaks place = true → place ∈ s'.held)
    (htexts : ∀ c, (true, c) ∈ s'.texts → Definition.read? (c.broken breaks).text = none)
    (hothers : ∀ c, (false, c) ∈ s'.texts → ∀ place ∈ c.lineEnds, breaks place = false) :
    Ends breaks s.leaf.lines s'.leaf := by
  have hheld : ∀ m ∈ s.leaf.lines, breaks m.stop = true → m.stop ∈ s'.held := fun m hm hmark =>
    hkeep _ (List.mem_cons_of_mem _ (List.mem_append_right _ (List.mem_map_of_mem hm))) hmark
  have hstops : (s.leaf.lines.map (·.stop)).Nodup :=
    (List.nodup_append.1 (List.nodup_cons.1 hnodup).2).2.1
  have hgained : ∀ {new t}, Gains s s' new → t ∈ new → t ∈ s'.texts := by
    rintro new t ⟨rest, -, hperm⟩ ht
    exact hperm.symm.subset (List.mem_append_left _ (List.mem_append_right _ ht))
  cases h with
  | goOn tail gains leaf => exact .goOn leaf
  | close gains begins =>
    refine .close begins.1 (closes_of_texts hplaced.lines hstops (fun m hm hmark => ?_)
      fun c hc => htexts c (hgained gains hc))
    exact gains.mem_new hnodup begins.2 hm (hheld m hm hmark)
  | table gains table =>
    have hnil := Leaf.lines_of_isTable table
    refine .table table (fun m hm => eq_false_of_ne_true fun hmark => ?_) ?_
    · obtain ⟨ls, hls⟩ := List.head?_eq_some_iff.1 (Option.mem_def.1 hm)
      rw [hls, List.map_cons] at hstops
      have hmem := gains.mem_new hnodup (.inl hnil) (hls ▸ List.mem_cons_self) (hheld m
        (hls ▸ List.mem_cons_self) hmark)
      have hmem := (lineEnds_paragraphBlocks _).subset hmem
      obtain ⟨n, hn, hstop⟩ := List.mem_map.1 hmem
      rw [hls] at hn
      exact (List.nodup_cons.1 hstops).1
        (hstop ▸ List.mem_map_of_mem (List.mem_of_mem_drop hn))
    · refine closes_of_texts (fun m hm => hplaced.lines m (List.mem_of_mem_drop hm))
        ((List.drop_sublist 1 _).map _ |>.nodup hstops) (fun m hm hmark => ?_)
        fun c hc => htexts c (hgained gains hc)
      have hm := List.mem_of_mem_drop hm
      exact gains.mem_new hnodup (.inl hnil) hm (hheld m hm hmark)
  | underline kept gains leaf =>
    refine .close (by rw [leaf]; rfl) (.of_unmarked hplaced.lines hstops fun m hm =>
      eq_false_of_ne_true fun hmark => ?_)
    have hmem := gains.mem_new hnodup (.inl (by rw [leaf]; rfl)) hm (hheld m hm hmark)
    rw [lineEndsOf, List.flatMap_singleton] at hmem
    rw [hothers _ (hgained gains (List.mem_singleton_self _)) _ hmem] at hmark
    cases hmark

/-! ## all lines -/

theorem nodup_of_subperm {α : Type} {l l' : List α} (h : l.Subperm l') (hnodup : l'.Nodup) :
    l.Nodup := by
  obtain ⟨m, hperm, hsub⟩ := h
  exact hperm.nodup_iff.1 (hsub.nodup hnodup)

theorem Turn.texts (h : Turn s l s') : ∀ t ∈ s.texts, t ∈ s'.texts := by
  have hgained : ∀ {new}, Gains s s' new → ∀ t ∈ s.texts, t ∈ s'.texts := by
    rintro new ⟨rest, -, hperm⟩ t ht
    exact hperm.symm.subset (List.mem_append_right _ ht)
  cases h with
  | goOn tail gains leaf => exact hgained gains
  | close gains begins => exact hgained gains
  | table gains table => exact hgained gains
  | underline kept gains leaf => exact hgained gains

theorem Turn.held_subperm (h : Turn s l s') : s'.held.Subperm (l.stop :: s.held) := by
  rcases h.held with ⟨-, hperm, -⟩ | ⟨hsub, -⟩
  · exact hperm.subperm
  · exact hsub.trans ((List.subperm_cons _).2 (inside_subperm_held s))

theorem Turn.inside_subperm (h : Turn s l s') : s'.inside.Subperm s.held := by
  rcases h.held with ⟨-, -, hperm⟩ | ⟨-, hsub⟩
  · exact hperm.subperm
  · exact hsub.trans (inside_subperm_held s)

theorem readLines_held (o : MarkdownSettings) (hs : s.Rooted) (ls : List Line) :
    (∀ t ∈ s.texts, t ∈ (ls.foldl (readLine o) s).texts) ∧
      (ls.foldl (readLine o) s).held ⊆ s.held ++ ls.map (·.stop) := by
  induction ls generalizing s with
  | nil => exact ⟨fun t ht => ht, fun p hp => List.mem_append_left _ hp⟩
  | cons l ls ih =>
    obtain ⟨hturn, hrooted⟩ := readLine_turn o hs l
    obtain ⟨htexts, hheld⟩ := ih hrooted
    refine ⟨fun t ht => htexts t (hturn.texts t ht), fun p hp => ?_⟩
    rw [List.map_cons]
    rcases List.mem_append.1 (hheld hp) with hp | hp
    · rcases List.mem_cons.1 (hturn.held_subperm.subset hp) with rfl | hp
      · exact List.mem_append_right _ List.mem_cons_self
      · exact List.mem_append_left _ hp
    · exact List.mem_append_right _ (List.mem_cons_of_mem _ hp)

/-- **All lines keep two states alike**, if in the end all marked line endings are in texts of
paragraphs or in the open one. -/
theorem Marked.readLines {ls ls' : List Line} (hls : List.Forall₂ (Line.Alike breaks) ls ls')
    (h : Marked breaks s s') (hrooted : s.Rooted) (hplaced : s.Placed)
    (hrests : ∀ l ∈ ls, '\n' ∉ l.rest) (hnodup : (s.held ++ ls.map (·.stop)).Nodup)
    (hkeep : ∀ place ∈ s.held ++ ls.map (·.stop), breaks place = true →
      place ∈ (ls.foldl (Stack.readLine o) s).held)
    (htexts : ∀ c, (true, c) ∈ (ls.foldl (Stack.readLine o) s).texts →
      Definition.read? (c.broken breaks).text = none)
    (hothers : ∀ c, (false, c) ∈ (ls.foldl (Stack.readLine o) s).texts →
      ∀ place ∈ c.lineEnds, breaks place = false) :
    Marked breaks (ls.foldl (Stack.readLine o) s) (ls'.foldl (Stack.readLine o) s') := by
  induction hls generalizing s s' with
  | nil => exact h
  | @cons l l' ls ls' hl hls ih =>
    obtain ⟨hrest, hrests⟩ := List.forall_mem_cons.1 hrests
    obtain ⟨hturn, hrooted'⟩ := readLine_turn o hrooted l
    obtain ⟨hlater, hheld⟩ := readLines_held o hrooted' ls
    rw [List.foldl_cons] at hkeep htexts hothers ⊢
    rw [List.foldl_cons]
    rw [List.map_cons] at hnodup hkeep
    have hmove : (s.held ++ l.stop :: ls.map (·.stop)).Perm
        ((l.stop :: s.held) ++ ls.map (·.stop)) := List.perm_middle
    have hnodup' : ((l.stop :: s.held) ++ ls.map (·.stop)).Nodup := hmove.nodup_iff.1 hnodup
    have hkeep' : ∀ place ∈ l.stop :: s.held, breaks place = true →
        place ∈ (s.readLine o l).held := by
      intro place hplace hmark
      have hfinal := hkeep place (hmove.symm.subset (List.mem_append_left _ hplace)) hmark
      refine (List.mem_append.1 (hheld hfinal)).resolve_right fun hmem => ?_
      exact (List.nodup_append.1 hnodup').2.2 _ hplace _ hmem rfl
    have hfirst := (List.nodup_append.1 hnodup').1
    have hends := hturn.ends hplaced hfirst hkeep' (fun c hc => htexts c (hlater _ hc))
      fun c hc => hothers c (hlater _ hc)
    have hopen : (s.readLine o l).leaf.lines = [] → breaks l.stop = false := by
      intro hnil
      refine eq_false_of_ne_true fun hmark => ?_
      have hmem := hkeep' _ List.mem_cons_self hmark
      have hsame : (s.readLine o l).held = (s.readLine o l).inside := by
        rw [Stack.held, Stack.inside, hnil]
        rfl
      rw [hsame] at hmem
      exact (List.nodup_cons.1 hfirst).1 (hturn.inside_subperm.subset hmem)
    have hsub : ((s.readLine o l).held ++ ls.map (·.stop)).Subperm
        ((l.stop :: s.held) ++ ls.map (·.stop)) :=
      (List.subperm_append_right _).2 hturn.held_subperm
    exact ih (h.readLine o hl hopen hends) hrooted' (hturn.placed hrest hplaced) hrests
      (nodup_of_subperm hsub hnodup') (fun place hplace =>
        hkeep place (hmove.symm.subset (hsub.subset hplace))) htexts hothers

end Stack

/-! ## lines of documents -/

open Line (mark)

section
variable {places : List Nat}

theorem getLast?_breakAt (places : List Nat) (start : Nat) (s : Text) :
    (breakAt places start s).getLast? = s.getLast? := by
  induction s generalizing start with
  | nil => rfl
  | cons c r ih =>
    have ih := ih (start + c.utf8Size)
    rw [breakAt]
    split
    · rw [List.getLast?_cons_cons, List.getLast?_cons, List.getLast?_cons, ih]
    · rw [List.getLast?_cons, List.getLast?_cons, ih]

/-- a line, and the line with its backslash at another place -/
def SameLine (places : List Nat) (l l' : Line) : Prop :=
  l'.spare = l.spare ∧ l'.column = l.column ∧ l'.rest = l.rest ++ mark places.contains l.stop

theorem place_breakAt {start : Nat} (start' : Nat) {s : Text}
    (h : ∀ place ∈ places, start ≤ place → place ∈ lineEndsFrom start s) :
    List.Forall₂ (SameLine places) (Line.place start (Text.splitOn '\n' s))
      (Line.place start' (Text.splitOn '\n' (breakAt places start s))) := by
  induction s generalizing start start' with
  | nil =>
    have hno : places.contains start = false := eq_false_of_ne_true fun hc =>
      absurd (h start (List.contains_iff_mem.1 hc) (Nat.le_refl _)) List.not_mem_nil
    refine .cons ⟨rfl, rfl, ?_⟩ .nil
    change [] = [] ++ mark places.contains start
    rw [mark, hno]
    rfl
  | cons c r ih =>
    have hrest : ∀ place ∈ places, start + c.utf8Size ≤ place →
        place ∈ lineEndsFrom (start + c.utf8Size) r := by
      intro place hplace hle
      have hsize := c.utf8Size_pos
      have hmem := h place hplace (by omega)
      rw [lineEndsFrom] at hmem
      split at hmem
      · exact (List.mem_cons.1 hmem).resolve_left (by omega)
      · exact hmem
    by_cases hc : c = '\n'
    · subst hc
      have hfirst : ∀ r : Text, Text.splitOn '\n' ('\n' :: r) = [] :: Text.splitOn '\n' r :=
        Text.splitOn_append '\n' []
      rw [breakAt, hfirst, Line.place]
      by_cases hbreak : places.contains start = true
      · have hmarked : ∀ r : Text,
            Text.splitOn '\n' ('\\' :: '\n' :: r) = ['\\'] :: Text.splitOn '\n' r :=
          Text.splitOn_append '\n' ['\\']
        rw [if_pos hbreak, hmarked, Line.place]
        refine .cons ⟨rfl, rfl, ?_⟩ (ih _ hrest)
        change ['\\'] = [] ++ mark places.contains start
        rw [mark, if_pos hbreak]
        rfl
      · rw [if_neg hbreak, hfirst, Line.place]
        refine .cons ⟨rfl, rfl, ?_⟩ (ih _ hrest)
        change [] = [] ++ mark places.contains start
        rw [mark, if_neg hbreak]
        rfl
    · have hbreak : ¬ places.contains start = true := by
        intro hbreak
        have hsize := c.utf8Size_pos
        have hmem := h start (List.contains_iff_mem.1 hbreak) (Nat.le_refl _)
        rw [lineEndsFrom, if_neg hc] at hmem
        have hle := lineEndsFrom_le _ _ _ hmem
        omega
      have ih := ih (start' + c.utf8Size) hrest
      rw [breakAt, if_neg hbreak, Text.splitOn, if_neg hc, Text.splitOn, if_neg hc]
      obtain ⟨w, ws, hws⟩ := List.exists_cons_of_ne_nil (Text.splitOn_ne_nil '\n' r)
      obtain ⟨w', ws', hws'⟩ := List.exists_cons_of_ne_nil
        (Text.splitOn_ne_nil '\n' (breakAt places (start + c.utf8Size) r))
      rw [hws, hws'] at ih ⊢
      dsimp only
      rw [Line.place, Line.place] at ih ⊢
      obtain ⟨⟨-, -, hw⟩, htail⟩ := List.forall₂_cons.1 ih
      rw [Text.byteSize_cons, Text.byteSize_cons, ← Nat.add_assoc, ← Nat.add_assoc]
      refine .cons ⟨rfl, rfl, ?_⟩ htail
      exact congrArg (c :: ·) hw

theorem endsWith_breakAt (start : Nat) (s : Text) :
    Text.endsWith '\n' (breakAt places start s) = Text.endsWith '\n' s := by
  rw [Text.endsWith, Text.endsWith, getLast?_breakAt]

theorem linesFrom_breakAt {start : Nat} (start' : Nat) {s : Text}
    (h : ∀ place ∈ places, start ≤ place → place ∈ lineEndsFrom start s) :
    List.Forall₂ (SameLine places) (linesFrom start s)
      (linesFrom start' (breakAt places start s)) := by
  have hlines := place_breakAt start' h
  have hempty : (breakAt places start s).isEmpty = s.isEmpty := by
    rw [Bool.eq_iff_iff, List.isEmpty_iff, List.isEmpty_iff, ← List.getLast?_eq_none_iff,
      getLast?_breakAt, List.getLast?_eq_none_iff]
  unfold linesFrom
  dsimp only
  rw [hempty, endsWith_breakAt]
  split
  · rw [List.dropLast_eq_take, List.dropLast_eq_take, hlines.length_eq]
    exact List.forall₂_take _ hlines
  · exact hlines

end

theorem nodup_stops (start : Nat) (ts : List Text) :
    ((Line.place start ts).map (·.stop)).Nodup ∧
      ∀ l ∈ Line.place start ts, start ≤ l.stop := by
  induction ts generalizing start with
  | nil => exact ⟨List.nodup_nil, fun l hl => absurd hl List.not_mem_nil⟩
  | cons t ts ih =>
    obtain ⟨hnodup, hle⟩ := ih (start + Text.byteSize t + 1)
    rw [Line.place]
    refine ⟨List.nodup_cons.2 ⟨fun hmem => ?_, hnodup⟩, List.forall_mem_cons.2
      ⟨Nat.le_add_right _ _, fun l hl => ?_⟩⟩
    · obtain ⟨l, hl, hstop⟩ := List.mem_map.1 hmem
      have hlt := hle l hl
      dsimp only at hstop
      omega
    · have hlt := hle l hl
      omega

theorem nodup_linesFrom (start : Nat) (s : Text) : ((linesFrom start s).map (·.stop)).Nodup := by
  have hnodup := (nodup_stops start (Text.splitOn '\n' s)).1
  unfold linesFrom
  dsimp only
  split
  · exact ((List.dropLast_sublist _).map _).nodup hnodup
  · exact hnodup

/-! ## blocks of documents -/

namespace Stack

variable {breaks : Nat → Bool} {s s' : Stack}

/-- the state at the end of a document; `ended` tells whether that ends with a line ending -/
def atEnd (ended : Bool) (s : Stack) : Stack :=
  if ended then { s with leaf := s.leaf.afterLast } else s

def blocks (s : Stack) : List (Block Content) := (s.leave s.outer.length).top.blocks.reverse

theorem readBlocksFrom_eq (o : MarkdownSettings) (start : Nat) (s : Text) : readBlocksFrom o start s =
    (((linesFrom start s).foldl (readLine o) {}).atEnd (Text.endsWith '\n' s)).blocks := rfl

theorem atEnd_texts (ended : Bool) (s : Stack) : (s.atEnd ended).texts = s.texts := by
  cases ended <;> rfl

theorem atEnd_lines (ended : Bool) (s : Stack) : (s.atEnd ended).leaf.lines = s.leaf.lines := by
  cases ended with
  | true => exact lines_afterLast s.leaf
  | false => rfl

theorem atEnd_rooted (ended : Bool) (h : s.Rooted) : (s.atEnd ended).Rooted := by
  cases ended <;> exact h

theorem mem_texts_blocks (h : s.Rooted) {t : Bool × Content}
    (ht : t ∈ Block.textsIn (Leaf.paragraphBlocks s.leaf.lines) ++ s.texts) :
    t ∈ Block.textsIn s.blocks := by
  obtain ⟨⟨rest, -, hgains⟩, hperm⟩ := leave_texts h
  refine hperm.symm.subset (hgains.symm.subset ?_)
  rw [List.append_assoc]
  exact List.mem_append_right _ ht

theorem lineEnds_blocks (h : s.Rooted) : (lineEndsOf (Block.textsIn s.blocks)).Perm
    (lineEndsOf (Block.textsIn (Leaf.paragraphBlocks s.leaf.lines)) ++ lineEndsOf s.texts) := by
  obtain ⟨hgains, hperm⟩ := leave_texts h
  exact (hperm.flatMap_right _).trans hgains.lineEnds

theorem Marked.atEnd (h : Marked breaks s s') (ended : Bool) :
    Marked breaks (s.atEnd ended) (s'.atEnd ended) := by
  have hlast : s.leaf.afterLast.Marked breaks s'.leaf.afterLast := by
    have hleaf := h.leaf
    generalize s.leaf = b at hleaf ⊢
    generalize s'.leaf = b' at hleaf ⊢
    cases hleaf with
    | paragraph h => exact .paragraph h
    | same h =>
      refine .same ?_
      cases b with
      | paragraph lines => cases h
      | html k lines =>
        rw [Leaf.afterLast]
        cases k.endsAtBlank <;> rfl
      | closed | indentedCode _ _ | fenced _ _ | table _ _ _ => rfl
  cases ended with
  | true => exact h.withLeaf hlast
  | false => exact h

theorem Marked.blocks (h : Marked breaks s s') (hclose : Closes breaks s.leaf.lines) :
    Block.mapIn plain s'.blocks = Block.mapIn (broken breaks) s.blocks := by
  have houter : s'.outer.map (Frame.map plain) = s.outer.map (Frame.map (broken breaks)) :=
    congrArg Stack.outer h.shell
  have hlength : s'.outer.length = s.outer.length := by simpa using congrArg List.length houter
  have htop : (s'.leave s.outer.length).top.map plain =
      (s.leave s.outer.length).top.map (broken breaks) :=
    congrArg Stack.top (h.leave hclose s.outer.length).shell
  rw [Stack.blocks, Stack.blocks, hlength, Block.mapIn_reverse, Block.mapIn_reverse]
  exact congrArg (fun f : Frame => f.blocks.reverse) htop

/-- texts that hold one line ending are one text -/
theorem eq_of_mem_lineEnds {ts : List (Bool × Content)} (h : (lineEndsOf ts).Nodup)
    {t u : Bool × Content} (ht : t ∈ ts) (hu : u ∈ ts) {place : Nat} (hpt : place ∈ t.2.lineEnds)
    (hpu : place ∈ u.2.lineEnds) : t = u := by
  induction ts with
  | nil => exact absurd ht List.not_mem_nil
  | cons v ts ih =>
    rw [lineEndsOf, List.flatMap_cons] at h
    obtain ⟨-, hnodup, hdisjoint⟩ := List.nodup_append.1 h
    have hlater : ∀ {w}, w ∈ ts → place ∈ w.2.lineEnds → place ∉ v.2.lineEnds := fun hw hmem hv =>
      hdisjoint _ hv _ (List.mem_flatMap.2 ⟨_, hw, hmem⟩) rfl
    rcases List.mem_cons.1 ht with rfl | ht'
    · exact ((List.mem_cons.1 hu).resolve_right fun hu => hlater hu hpu hpt).symm
    · rcases List.mem_cons.1 hu with rfl | hu'
      · exact absurd hpu (hlater ht' hpt)
      · exact ih hnodup ht' hu'

/-- **The blocks of a document with backslashes**, if these stand at line endings in texts of
paragraphs, behind characters that let them, and begin no definition. -/
theorem readBlocksFrom_breakAt (o : MarkdownSettings) {places : List Nat} {start : Nat}
    (start' : Nat) {s : Text}
    (hclean : ∀ l ∈ linesFrom start s, places.contains l.stop = true →
      endsOpenly l.rest.getLast? = true)
    (hplaces : ∀ place ∈ places, ∃ c, (true, c) ∈ Block.textsIn (readBlocksFrom o start s) ∧
      place ∈ c.lineEnds)
    (hno : ∀ c, (true, c) ∈ Block.textsIn (readBlocksFrom o start s) →
      Definition.read? (c.broken places.contains).text = none) :
    Block.mapIn plain (readBlocksFrom o start' (breakAt places start s)) =
      Block.mapIn (broken places.contains) (readBlocksFrom o start s) := by
  obtain ⟨hends, -⟩ := readBlocksFrom_lineEnds o start s
  have hnodup := nodup_of_subperm hends (nodup_lineEndsFrom start s)
  have hlines : List.Forall₂ (Line.Alike places.contains) (linesFrom start s)
      (linesFrom start' (breakAt places start s)) := by
    have hsame := linesFrom_breakAt start' fun place hplace _ => by
      obtain ⟨c, hc, hmem⟩ := hplaces place hplace
      exact hends.subset (List.mem_flatMap.2 ⟨_, hc, hmem⟩)
    refine ((List.forall₂_and_left _ _).2 ⟨hclean, hsame⟩).imp ?_
    rintro l l' ⟨hclean, hspare, hcolumn, hrest⟩
    exact ⟨hspare, hcolumn, hrest, hclean⟩
  have hrests : ∀ l ∈ linesFrom start s, '\n' ∉ l.rest := fun l => rest_linesFrom
  have hstops := nodup_linesFrom start s
  obtain ⟨hrooted, hplaced, hheld, -⟩ := readLines_turns o hrests
  have hrun := Marked.readLines (s := {}) (o := o) hlines ⟨rfl, .same rfl⟩
    True.intro ⟨fun l hl => absurd hl List.not_mem_nil, fun c hc => absurd hc List.not_mem_nil⟩
    hrests hstops
  rw [readBlocksFrom_eq] at hplaces hno hnodup ⊢
  rw [readBlocksFrom_eq, endsWith_breakAt]
  generalize (linesFrom start s).foldl (readLine o) {} = r at *
  generalize (linesFrom start' (breakAt places start s)).foldl (readLine o) {} = r' at *
  generalize Text.endsWith '\n' s = ended at *
  have hrooted := atEnd_rooted ended hrooted
  have htexts := atEnd_texts ended r
  have hopen := atEnd_lines ended r
  have hmarked : ∀ place, places.contains place = true →
      place ∈ lineEndsOf (Block.textsIn (Leaf.paragraphBlocks r.leaf.lines)) ∨
        place ∈ lineEndsOf r.texts := by
    intro place hplace
    obtain ⟨c, hc, hmem⟩ := hplaces place (List.contains_iff_mem.1 hplace)
    have hends := (lineEnds_blocks hrooted).subset (List.mem_flatMap.2 ⟨_, hc, hmem⟩)
    rw [htexts, hopen] at hends
    exact List.mem_append.1 hends
  have hlater : ∀ t ∈ Block.textsIn (Leaf.paragraphBlocks r.leaf.lines) ++ r.texts,
      t ∈ Block.textsIn (r.atEnd ended).blocks := fun t ht =>
    mem_texts_blocks hrooted (by rw [htexts, hopen]; exact ht)
  have hrun : Marked places.contains r r' := by
    refine hrun (fun place _ hbreak => ?_)
      (fun c hc => hno c (hlater _ (List.mem_append_right _ hc)))
      fun c hc place hplace => eq_false_of_ne_true fun hbreak => ?_
    · rcases hmarked place hbreak with hmem | hmem
      · have hmem := (lineEnds_paragraphBlocks _).subset hmem
        exact List.mem_append_right _ (((List.drop_sublist 1 _).map _).subset hmem)
      · exact List.mem_append_left _ hmem
    · obtain ⟨c', hc', hmem⟩ := hplaces place (List.contains_iff_mem.1 hbreak)
      cases eq_of_mem_lineEnds hnodup (hlater _ (List.mem_append_right _ hc)) hc' hplace hmem
  have hclose : Closes places.contains r.leaf.lines := by
    obtain ⟨-, hstops, hdisjoint⟩ := List.nodup_append.1 (nodup_of_subperm hheld hstops)
    refine closes_of_texts hplaced.lines hstops (fun l hl hbreak => ?_)
      fun c hc => hno c (hlater _ (List.mem_append_left _ hc))
    exact (hmarked l.stop hbreak).resolve_right fun hmem =>
      hdisjoint _ hmem _ (List.mem_map_of_mem hl) rfl
  exact (hrun.atEnd ended).blocks (hopen ▸ hclose)

end Stack

def documentLines (s : Text) : List Line :=
  match s with
  | '\ufeff' :: r => linesFrom 3 r
  | s => linesFrom 0 s

/-- the blocks of a whole document with backslashes -/
theorem readDocument_breakAt (o : MarkdownSettings) {places : List Nat} {s : Text}
    (hclean : ∀ l ∈ documentLines s, places.contains l.stop = true →
      endsOpenly l.rest.getLast? = true)
    (hplaces : ∀ place ∈ places, ∃ c, (true, c) ∈ Block.textsIn (readDocument o s) ∧
      place ∈ c.lineEnds)
    (hno : ∀ c, (true, c) ∈ Block.textsIn (readDocument o s) →
      Definition.read? (c.broken places.contains).text = none) :
    Block.mapIn plain (readDocument o (breakAt places 0 s)) =
      Block.mapIn (broken places.contains) (readDocument o s) := by
  unfold documentLines at hclean
  by_cases hmark : s.head? = some '\ufeff'
  · obtain ⟨r, rfl⟩ := List.head?_eq_some_iff.1 hmark
    have hfirst : ¬ places.contains 0 = true := by
      intro hmem
      obtain ⟨c, hc, hmem⟩ := hplaces 0 (List.contains_iff_mem.1 hmem)
      have hends := (readBlocksFrom_lineEnds o 3 r).1.subset (List.mem_flatMap.2 ⟨_, hc, hmem⟩)
      exact absurd (lineEndsFrom_le 3 r 0 hends) (by decide)
    rw [breakAt, if_neg hfirst]
    exact Stack.readBlocksFrom_breakAt o 3 hclean hplaces hno
  · have hread : ∀ {t : Text}, t.head? ≠ some '\ufeff' → readDocument o t = readBlocksFrom o 0 t := by
      intro t ht
      unfold readDocument
      split
      · exact absurd rfl ht
      · rfl
    have hmark' : (breakAt places 0 s).head? ≠ some '\ufeff' := by
      cases s with
      | nil => exact hmark
      | cons c r =>
        rw [breakAt]
        split
        · exact fun e => absurd (Option.some.inj e) (by decide)
        · exact hmark
    rw [hread hmark] at hplaces hno
    rw [hread hmark, hread hmark']
    split at hclean
    · exact absurd rfl hmark
    · exact Stack.readBlocksFrom_breakAt o 0 hclean hplaces hno

end MarkdownModule.Markdown

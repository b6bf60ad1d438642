import MarkdownModule.Proofs.Markdown.Outline
import MarkdownModule.Proofs.Text.Bytes

/-!
# Backslashes before the line endings of paragraphs

The tree of a document says which parts of it are texts of paragraphs.  The places in a tree need not
be those of the document: they may lie beyond its end or inside of a character, and the places of two
texts may overlap.  The document is cut at each line ending that some text of a paragraph covers, and
the parts are put together again with backslashes between them.

* `Markdown.Node.Wants`          the line endings that are to have a backslash
* `Markdown.mem_lineEnds_iff`    they are the ones that are found
* `Markdown.hardBreaks?_eq`      the parts put together are the document read with backslashes
* `Markdown.exists_parts_hardBreaks`   the parts, and where they meet
-/

namespace MarkdownModule.Markdown

open Text (byteSize)

/-! ## parts of a tree -/

/-- a part of a document, and a part that it is or that is in it at any depth -/
inductive Node.Holds : Node → Node → Prop
  | self (n : Node) : Holds n n
  | paragraph {inner : List Node} {m n : Node} (hm : m ∈ inner) (h : Holds m n) :
      Holds (.paragraph inner) n
  | part {inner : List Node} {m n : Node} (hm : m ∈ inner) (h : Holds m n) :
      Holds (.part inner) n

/-- two places that are the borders of a part of a text -/
def IsRange (source : Text) (start stop : Nat) : Prop :=
  ∃ a b c, source = a ++ (b ++ c) ∧ byteSize a = start ∧ byteSize (a ++ b) = stop

def IsLineEnd (source : Text) (place : Nat) : Prop :=
  ∃ a b, source = a ++ '\n' :: b ∧ byteSize a = place

/-- the place of a line ending that a text in a paragraph of the tree covers, which itself stands
between two places of the document -/
def Node.Wants (tree : Node) (source : Text) (place : Nat) : Prop :=
  IsLineEnd source place ∧ ∃ inner start stop, tree.Holds (.paragraph inner) ∧
    (Node.paragraph inner).Holds (.text (some (start, stop))) ∧
    IsRange source start stop ∧ start ≤ place ∧ place < stop

/-! ## the line endings that are found -/

section
variable {source : Text} {place : Nat}

theorem mem_lineEndsFrom (start : Nat) (a b : Text) :
    start + byteSize a ∈ lineEndsFrom start (a ++ '\n' :: b) := by
  induction a generalizing start with
  | nil =>
    rw [List.nil_append, lineEndsFrom, if_pos rfl]
    exact List.mem_cons_self
  | cons c a ih =>
    have hmem := ih (start + c.utf8Size)
    rw [Nat.add_assoc, ← Text.byteSize_cons] at hmem
    rw [List.cons_append, lineEndsFrom]
    split
    · exact List.mem_cons_of_mem _ hmem
    · exact hmem

theorem mem_lineEndsIn_iff {start stop : Nat} :
    place ∈ lineEndsIn source (some (start, stop)) ↔
      IsLineEnd source place ∧ IsRange source start stop ∧ start ≤ place ∧ place < stop := by
  constructor
  · intro h
    unfold lineEndsIn at h
    dsimp only at h
    cases hslice : Text.slice? start stop source with
    | none =>
      rw [hslice] at h
      exact absurd h List.not_mem_nil
    | some b =>
      obtain ⟨a, c, rfl, rfl, rfl⟩ := Text.slice?_eq_some_iff.1 hslice
      rw [hslice] at h
      obtain ⟨x, y, rfl, rfl⟩ := exists_of_mem_lineEndsFrom h
      refine ⟨⟨a ++ x, y ++ c, by simp, Text.byteSize_append a x⟩, ⟨a, _, c, rfl, rfl, rfl⟩,
        Nat.le_add_right _ _, ?_⟩
      have hsize : Char.utf8Size '\n' = 1 := rfl
      rw [Text.byteSize_append, Text.byteSize_append, Text.byteSize_cons]
      omega
  · rintro ⟨⟨u, v, hu, rfl⟩, ⟨a, b, c, hs, rfl, rfl⟩, hle, hlt⟩
    obtain ⟨x, rfl, -⟩ := Text.append_of_byteSize_le (hs.symm.trans hu) hle
    have hcut : ((a ++ x) ++ ['\n']) ++ v = (a ++ b) ++ c := by
      rw [List.append_assoc a b c, ← hs, hu, List.append_assoc, List.singleton_append]
    have hend : byteSize ((a ++ x) ++ ['\n']) ≤ byteSize (a ++ b) := by
      rw [Text.byteSize_append]
      exact hlt
    obtain ⟨y, hb, -⟩ := Text.append_of_byteSize_le hcut hend
    have hb : b = x ++ '\n' :: y := by
      rw [List.append_assoc, List.append_assoc] at hb
      exact List.append_cancel_left hb
    rw [lineEndsIn, Text.slice?_eq_some_iff.2 ⟨a, c, hs, rfl, rfl⟩, Option.map_some, Option.getD_some,
      hb, Text.byteSize_append]
    exact mem_lineEndsFrom (byteSize a) x y

theorem mem_lineEndsInRow_iff {inParagraph : Bool} {ns : List Node} :
    place ∈ lineEndsInRow source inParagraph ns ↔ ∃ n ∈ ns, place ∈ n.lineEnds source inParagraph := by
  induction ns with
  | nil => simp [lineEndsInRow]
  | cons n ns ih => rw [lineEndsInRow, List.mem_append, ih, List.exists_mem_cons_iff]

/-! From a place to the parts that it is in, by the constructors of the tree; from the parts to the
place, by the way to them. -/

theorem Node.exists_of_mem_inside : ∀ n : Node, place ∈ n.lineEnds source true →
    ∃ start stop, n.Holds (.text (some (start, stop))) ∧
      place ∈ lineEndsIn source (some (start, stop))
  | .text none, h => absurd h List.not_mem_nil
  | .text (some (start, stop)), h => ⟨start, stop, .self _, h⟩
  | .paragraph _, h =>
    have ⟨m, hm, hp⟩ := mem_lineEndsInRow_iff.1 h
    have ⟨start, stop, hn, hp⟩ := m.exists_of_mem_inside hp
    ⟨start, stop, .paragraph hm hn, hp⟩
  | .part _, h =>
    have ⟨m, hm, hp⟩ := mem_lineEndsInRow_iff.1 h
    have ⟨start, stop, hn, hp⟩ := m.exists_of_mem_inside hp
    ⟨start, stop, .part hm hn, hp⟩

theorem Node.Holds.mem_inside {n m : Node} (h : n.Holds m) (hm : place ∈ m.lineEnds source true) :
    place ∈ n.lineEnds source true := by
  induction h with
  | self => exact hm
  | paragraph hmem _ ih | part hmem _ ih => exact mem_lineEndsInRow_iff.2 ⟨_, hmem, ih hm⟩

theorem Node.exists_of_mem_lineEnds : ∀ n : Node, place ∈ n.lineEnds source false →
    ∃ inner, n.Holds (.paragraph inner) ∧ place ∈ lineEndsInRow source true inner
  | .text _, h => absurd h List.not_mem_nil
  | .paragraph inner, h => ⟨inner, .self _, h⟩
  | .part _, h =>
    have ⟨m, hm, hp⟩ := mem_lineEndsInRow_iff.1 h
    have ⟨inner, hn, hp⟩ := m.exists_of_mem_lineEnds hp
    ⟨inner, .part hm hn, hp⟩

theorem Node.Holds.mem_lineEnds {n : Node} {inner : List Node} (h : n.Holds (.paragraph inner))
    (hp : place ∈ lineEndsInRow source true inner) : place ∈ n.lineEnds source false := by
  generalize hm : Node.paragraph inner = m at h
  induction h with
  | self =>
    rw [← hm]
    exact hp
  | paragraph hmem h _ =>
    subst hm
    exact mem_lineEndsInRow_iff.2 ⟨_, hmem, h.mem_inside hp⟩
  | part hmem _ ih => exact mem_lineEndsInRow_iff.2 ⟨_, hmem, ih hm⟩

/-- **The line endings that are found in a tree are the ones that a text of a paragraph covers.** -/
theorem mem_lineEnds_iff (tree : Node) :
    place ∈ tree.lineEnds source false ↔ tree.Wants source place := by
  constructor
  · intro h
    obtain ⟨inner, hinner, hplace⟩ := tree.exists_of_mem_lineEnds h
    obtain ⟨start, stop, htext, hplace⟩ := (Node.paragraph inner).exists_of_mem_inside hplace
    obtain ⟨hend, hrange⟩ := mem_lineEndsIn_iff.1 hplace
    exact ⟨hend, inner, start, stop, hinner, htext, hrange⟩
  · rintro ⟨hend, inner, start, stop, hinner, htext, hrange⟩
    have hplace : place ∈ (Node.text (some (start, stop))).lineEnds source true :=
      mem_lineEndsIn_iff.2 ⟨hend, hrange⟩
    exact hinner.mem_lineEnds (htext.mem_inside hplace)

end

/-! ## places in order -/

theorem mem_putInOrder {place p : Nat} {ps : List Nat} :
    p ∈ putInOrder place ps ↔ p = place ∨ p ∈ ps := by
  induction ps with
  | nil => exact List.mem_singleton.trans (or_iff_left List.not_mem_nil).symm
  | cons q ps ih =>
    rw [putInOrder]
    split
    · exact List.mem_cons
    split
    · next h =>
      rw [← h]
      exact ⟨.inr, fun hp => hp.elim (fun e => e ▸ List.mem_cons_self) id⟩
    · rw [List.mem_cons, ih, List.mem_cons, or_left_comm]

theorem pairwise_putInOrder {ps : List Nat} (h : ps.Pairwise (· < ·)) (place : Nat) :
    (putInOrder place ps).Pairwise (· < ·) := by
  induction ps with
  | nil => exact List.pairwise_singleton _ _
  | cons q ps ih =>
    obtain ⟨hq, hps⟩ := List.pairwise_cons.1 h
    rw [putInOrder]
    split
    · next hlt =>
      refine List.pairwise_cons.2 ⟨List.forall_mem_cons.2 ⟨hlt, fun p hp => ?_⟩, h⟩
      exact hlt.trans (hq p hp)
    split
    · exact h
    · next hge hne =>
      refine List.pairwise_cons.2 ⟨fun p hp => ?_, ih hps⟩
      rcases mem_putInOrder.1 hp with rfl | hp
      · omega
      · exact hq p hp

theorem mem_inOrder {p : Nat} {places : List Nat} : p ∈ inOrder places ↔ p ∈ places := by
  induction places with
  | nil => exact Iff.rfl
  | cons q ps ih =>
    rw [List.mem_cons, ← ih]
    exact mem_putInOrder

theorem pairwise_inOrder (places : List Nat) : (inOrder places).Pairwise (· < ·) := by
  induction places with
  | nil => exact List.Pairwise.nil
  | cons p ps ih => exact pairwise_putInOrder ih p

/-! ## documents read with backslashes -/

theorem breakAt_nil (i : Nat) (s : Text) : breakAt [] i s = s := by
  induction s generalizing i with
  | nil => rfl
  | cons c r ih => rw [breakAt, if_neg (by simp), ih]

/-- nothing is put into a text that stands before all places -/
theorem breakAt_append {places : List Nat} {i : Nat} {x : Text}
    (h : ∀ place ∈ places, i + byteSize x ≤ place) (s : Text) :
    breakAt places i (x ++ s) = x ++ breakAt places (i + byteSize x) s := by
  induction x generalizing i with
  | nil => rfl
  | cons c x ih =>
    have hnot : ¬ places.contains i = true := fun hi => by
      have hle := h i (List.contains_iff_mem.1 hi)
      have hpos := c.utf8Size_pos
      rw [Text.byteSize_cons] at hle
      omega
    rw [Text.byteSize_cons, ← Nat.add_assoc] at h ⊢
    rw [List.cons_append, breakAt, if_neg hnot, ih h]
    rfl

/-- a place before a text does not count -/
theorem breakAt_cons_of_lt {place i : Nat} (h : place < i) (places : List Nat) (s : Text) :
    breakAt (place :: places) i s = breakAt places i s := by
  induction s generalizing i with
  | nil => rfl
  | cons c r ih =>
    have hsame : (place :: places).contains i = places.contains i := by
      rw [List.contains_cons, beq_eq_false_iff_ne.2 (Nat.ne_of_gt h), Bool.false_or]
    rw [breakAt, breakAt, hsame, ih (Nat.lt_add_right _ h)]

/-! ## parts put together -/

section
variable {source before s : Text} {places : List Nat}

/-- what is left of a document at the first of its later cuts -/
theorem exists_cut {a b : Text} (hs : source = before ++ s) (hab : source = a ++ b)
    (hle : byteSize before ≤ byteSize a) : ∃ x, a = before ++ x ∧ s = x ++ b ∧
      Text.slice? (byteSize before) (byteSize a) source = some x := by
  obtain ⟨x, rfl, rfl⟩ := Text.append_of_byteSize_le (hs.symm.trans hab) hle
  exact ⟨x, rfl, rfl, hs ▸ Text.slice?_byteSize before x b⟩

/-- the parts of a document between line endings, put together with backslashes -/
theorem splice?_eq (hs : source = before ++ s) (hsorted : places.Pairwise (· < ·))
    (hafter : ∀ place ∈ places, byteSize before ≤ place)
    (hends : ∀ place ∈ places, IsLineEnd source place) :
    splice? source (byteSize before) places = some (breakAt places (byteSize before) s) := by
  induction places generalizing before s with
  | nil => rw [splice?, hs, Text.dropBytes?_byteSize, breakAt_nil]
  | cons place places ih =>
    obtain ⟨hlater, htail⟩ := List.pairwise_cons.1 hsorted
    obtain ⟨⟨a, b, hab, rfl⟩, hnext⟩ := List.forall_mem_cons.1 hends
    obtain ⟨x, rfl, rfl, hslice⟩ := exists_cut hs hab (hafter _ List.mem_cons_self)
    have hx : ∀ p ∈ byteSize (before ++ x) :: places, byteSize before + byteSize x ≤ p := by
      rw [← Text.byteSize_append]
      exact List.forall_mem_cons.2 ⟨Nat.le_refl _, fun p hp => (hlater p hp).le⟩
    have hrest : breakAt places (byteSize (before ++ x)) ('\n' :: b) =
        '\n' :: breakAt places (byteSize (before ++ x) + Char.utf8Size '\n') b :=
      if_neg fun hc => Nat.lt_irrefl _ (hlater _ (List.contains_iff_mem.1 hc))
    have hhere : breakAt (byteSize (before ++ x) :: places) (byteSize (before ++ x)) ('\n' :: b) =
        '\\' :: breakAt places (byteSize (before ++ x)) ('\n' :: b) := by
      rw [breakAt, if_pos (by simp), breakAt_cons_of_lt (Nat.lt_add_of_pos_right (by decide)), hrest]
    rw [splice?, hslice, Option.bind_some, ih hab htail (fun p hp => (hlater p hp).le) hnext,
      Option.map_some, breakAt_append hx, ← Text.byteSize_append, hhere]

/-- where the parts of a text meet that begins at a place -/
def borders (start : Nat) : List Text → List Nat
  | [] => []
  | [_] => []
  | p :: q :: ps => (start + byteSize p) :: borders (start + byteSize p) (q :: ps)

/-- the parts that a document is cut into -/
theorem exists_parts (hs : source = before ++ s) (hsorted : places.Pairwise (· < ·))
    (hafter : ∀ place ∈ places, byteSize before ≤ place)
    (hends : ∀ place ∈ places, IsLineEnd source place) :
    ∃ p ps, (p :: ps).flatten = s ∧ borders (byteSize before) (p :: ps) = places ∧
      splice? source (byteSize before) places = some (['\\'].intercalate (p :: ps)) := by
  induction places generalizing before s with
  | nil =>
    refine ⟨s, [], List.flatten_singleton, rfl, ?_⟩
    rw [splice?, hs, Text.dropBytes?_byteSize, List.intercalate_singleton]
  | cons place places ih =>
    obtain ⟨hlater, htail⟩ := List.pairwise_cons.1 hsorted
    obtain ⟨⟨a, b, hab, rfl⟩, hnext⟩ := List.forall_mem_cons.1 hends
    obtain ⟨x, rfl, rfl, hslice⟩ := exists_cut hs hab (hafter _ List.mem_cons_self)
    obtain ⟨p, ps, hflat, hborders, hsplice⟩ :=
      ih hab htail (fun p hp => (hlater p hp).le) hnext
    refine ⟨x, p :: ps, by rw [List.flatten_cons, hflat], ?_, ?_⟩
    · rw [borders, ← Text.byteSize_append, hborders]
    · rw [splice?, hslice, Option.bind_some, hsplice, Option.map_some,
        List.intercalate_cons_cons]
      simp

end

/-! ## documents -/

theorem isLineEnd_of_mem_inOrder {source : Text} {tree : Node} :
    ∀ place ∈ inOrder (tree.lineEnds source false), IsLineEnd source place :=
  fun _ h => ((mem_lineEnds_iff tree).1 (mem_inOrder.1 h)).1

theorem breakAt_congr {places places' : List Nat} (h : ∀ p, p ∈ places ↔ p ∈ places') (i : Nat)
    (s : Text) : breakAt places i s = breakAt places' i s := by
  induction s generalizing i with
  | nil => rfl
  | cons c r ih =>
    have hsame : places.contains i = places'.contains i := by
      rw [Bool.eq_iff_iff, List.contains_iff_mem, List.contains_iff_mem, h]
    rw [breakAt, breakAt, hsame, ih]

/-- **The parts of a document put together are the document read with backslashes.** -/
theorem hardBreaks?_eq (source : Text) (tree : Node) :
    hardBreaks? source tree = some (hardBreaks source tree) := by
  have hplaces := pairwise_inOrder (tree.lineEnds source false)
  have hcut : splice? source (byteSize []) (inOrder (tree.lineEnds source false)) =
      some (breakAt (inOrder (tree.lineEnds source false)) 0 source) :=
    splice?_eq rfl hplaces (fun _ _ => Nat.zero_le _) isLineEnd_of_mem_inOrder
  rw [breakAt_congr fun p => mem_inOrder] at hcut
  exact hcut

/-- **A document is cut at the line endings that texts of its paragraphs cover, and gets a backslash
at each cut**, whatever the tree is.  No cut is out of range or inside of a character, each of the line
endings is cut at once, and without the backslashes the parts are the document. -/
theorem exists_parts_hardBreaks (source : Text) (tree : Node) :
    ∃ parts : List Text,
      hardBreaks? source tree = some (['\\'].intercalate parts) ∧ parts.flatten = source ∧
      (borders 0 parts).Pairwise (· < ·) ∧
      ∀ place, place ∈ borders 0 parts ↔ tree.Wants source place := by
  have hplaces := pairwise_inOrder (tree.lineEnds source false)
  obtain ⟨p, ps, hflat, hborders, hsplice⟩ : ∃ p ps, (p :: ps).flatten = source ∧
      borders 0 (p :: ps) = inOrder (tree.lineEnds source false) ∧
      splice? source 0 (inOrder (tree.lineEnds source false)) =
        some (['\\'].intercalate (p :: ps)) :=
    exists_parts (List.nil_append source).symm hplaces (fun _ _ => Nat.zero_le _)
      isLineEnd_of_mem_inOrder
  refine ⟨p :: ps, hsplice, hflat, ?_, fun place => ?_⟩
  · rw [hborders]
    exact pairwise_inOrder _
  · rw [hborders, mem_inOrder, mem_lineEnds_iff]

end MarkdownModule.Markdown

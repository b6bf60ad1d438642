import MarkdownModule.Proofs.Markdown.Texts
import MarkdownModule.Proofs.Markdown.LineBreak

/-!
# Blocks with other texts

Documents with the same blocks are written alike if their texts are.

* `Block.mapIn`              blocks with other texts
* `Scope.paragraphsIn`       the texts of paragraphs as they are resolved
* `writeBlocks_mapIn`        blocks whose texts are written alike
-/

namespace MarkdownModule.Markdown

namespace Block

variable {α β : Type}

mutual

def map (f : α → β) : Block α → Block β
  | .thematicBreak => .thematicBreak
  | .heading level c => .heading level (f c)
  | .paragraph c => .paragraph (f c)
  | .code language s => .code language s
  | .formula s => .formula s
  | .html s => .html s
  | .quote inner => .quote (mapIn f inner)
  | .list marker start loose items => .list marker start loose (mapInItems f items)
  | .table columns head rows => .table columns (head.map f) (rows.map (·.map f))
  | .definition d => .definition d
  | .footnote label inner => .footnote label (mapIn f inner)

def mapIn (f : α → β) : List (Block α) → List (Block β)
  | [] => []
  | b :: bs => b.map f :: mapIn f bs

def mapInItems (f : α → β) : List (List (Block α)) → List (List (Block β))
  | [] => []
  | i :: is => mapIn f i :: mapInItems f is

end

theorem isDefinition_map (f : α → β) (b : Block α) : (b.map f).isDefinition = b.isDefinition := by
  cases b <;> rfl

mutual

theorem definitions_map (f : α → β) : ∀ b : Block α, (b.map f).definitions = b.definitions
  | .quote inner => definitionsIn_mapIn f inner
  | .list _ _ _ items => definitionsInItems_mapInItems f items
  | .footnote _ inner => definitionsIn_mapIn f inner
  | .thematicBreak | .heading _ _ | .paragraph _ | .code _ _ | .formula _ | .html _ | .table _ _ _
  | .definition _ => rfl

theorem definitionsIn_mapIn (f : α → β) :
    ∀ bs : List (Block α), definitionsIn (mapIn f bs) = definitionsIn bs
  | [] => rfl
  | b :: bs => congrArg₂ (· ++ ·) (definitions_map f b) (definitionsIn_mapIn f bs)

theorem definitionsInItems_mapInItems (f : α → β) :
    ∀ is : List (List (Block α)), definitionsInItems (mapInItems f is) = definitionsInItems is
  | [] => rfl
  | i :: is => congrArg₂ (· ++ ·) (definitionsIn_mapIn f i) (definitionsInItems_mapInItems f is)

end

mutual

theorem footnotes_map (f : α → β) : ∀ b : Block α, (b.map f).footnotes = b.footnotes
  | .quote inner => footnotesIn_mapIn f inner
  | .list _ _ _ items => footnotesInItems_mapInItems f items
  | .footnote label inner => congrArg (label :: ·) (footnotesIn_mapIn f inner)
  | .thematicBreak | .heading _ _ | .paragraph _ | .code _ _ | .formula _ | .html _ | .table _ _ _
  | .definition _ => rfl

theorem footnotesIn_mapIn (f : α → β) :
    ∀ bs : List (Block α), footnotesIn (mapIn f bs) = footnotesIn bs
  | [] => rfl
  | b :: bs => congrArg₂ (· ++ ·) (footnotes_map f b) (footnotesIn_mapIn f bs)

theorem footnotesInItems_mapInItems (f : α → β) :
    ∀ is : List (List (Block α)), footnotesInItems (mapInItems f is) = footnotesInItems is
  | [] => rfl
  | i :: is => congrArg₂ (· ++ ·) (footnotesIn_mapIn f i) (footnotesInItems_mapInItems f is)

end

mutual

theorem onParagraphs_id : ∀ b : Block α, b.onParagraphs id = b
  | .quote inner => congrArg _ (onParagraphsIn_id inner)
  | .list _ _ _ items => congrArg _ (onParagraphsInItems_id items)
  | .footnote _ inner => congrArg _ (onParagraphsIn_id inner)
  | .thematicBreak | .heading _ _ | .paragraph _ | .code _ _ | .formula _ | .html _ | .table _ _ _
  | .definition _ => rfl

theorem onParagraphsIn_id : ∀ bs : List (Block α), onParagraphsIn id bs = bs
  | [] => rfl
  | b :: bs => congrArg₂ List.cons (onParagraphs_id b) (onParagraphsIn_id bs)

theorem onParagraphsInItems_id : ∀ is : List (List (Block α)), onParagraphsInItems id is = is
  | [] => rfl
  | i :: is => congrArg₂ List.cons (onParagraphsIn_id i) (onParagraphsInItems_id is)

end

end Block

/-! ## resolved texts -/

namespace Scope

theorem ofBlocks_mapIn (o : MarkdownSettings) (f : Content → Content) (bs : List (Block Content)) :
    ofBlocks o (Block.mapIn f bs) = ofBlocks o bs := by
  rw [ofBlocks, Block.definitionsIn_mapIn, Block.footnotesIn_mapIn]
  rfl

mutual

/-- the texts of the paragraphs in a block, each with whether it begins an item -/
def paragraphs (opens : Bool) : Block Content → List (Bool × Content)
  | .paragraph c => [(opens, c)]
  | .quote inner => paragraphsIn false inner
  | .list _ _ _ items => paragraphsInItems items
  | .footnote _ inner => paragraphsIn false inner
  | _ => []

def paragraphsIn (opens : Bool) : List (Block Content) → List (Bool × Content)
  | [] => []
  | b :: bs => paragraphs opens b ++ paragraphsIn (opens && b.isDefinition) bs

def paragraphsInItems : List (List (Block Content)) → List (Bool × Content)
  | [] => []
  | i :: is => paragraphsIn true i ++ paragraphsInItems is

end

mutual

/-- they are the texts of paragraphs in the order in which they stand -/
theorem paragraphs_texts (opens : Bool) : ∀ b : Block Content,
    (paragraphs opens b).map Prod.snd = (b.texts.filter Prod.fst).map Prod.snd
  | .quote inner => paragraphsIn_texts false inner
  | .list _ _ _ items => paragraphsInItems_texts items
  | .footnote _ inner => paragraphsIn_texts false inner
  | .table _ head rows => by
    have hno : ∀ cs : List Content, (cs.map (Prod.mk false)).filter Prod.fst = [] := fun cs => by
      rw [List.filter_eq_nil_iff]
      exact fun t ht => by
        obtain ⟨c, -, rfl⟩ := List.mem_map.1 ht
        exact Bool.false_ne_true
    rw [Block.texts, hno]
    rfl
  | .thematicBreak | .heading _ _ | .paragraph _ | .code _ _ | .formula _ | .html _
  | .definition _ => rfl

theorem paragraphsIn_texts (opens : Bool) : ∀ bs : List (Block Content),
    (paragraphsIn opens bs).map Prod.snd = ((Block.textsIn bs).filter Prod.fst).map Prod.snd
  | [] => rfl
  | b :: bs => by
    rw [paragraphsIn, Block.textsIn, List.filter_append, List.map_append, List.map_append,
      paragraphs_texts opens b, paragraphsIn_texts (opens && b.isDefinition) bs]

theorem paragraphsInItems_texts : ∀ is : List (List (Block Content)),
    (paragraphsInItems is).map Prod.snd = ((Block.textsInItems is).filter Prod.fst).map Prod.snd
  | [] => rfl
  | i :: is => by
    rw [paragraphsInItems, Block.textsInItems, List.filter_append, List.map_append, List.map_append,
      paragraphsIn_texts true i, paragraphsInItems_texts is]

end

theorem exists_paragraphsIn {opens : Bool} {bs : List (Block Content)} {c : Content} :
    (∃ inItem, (inItem, c) ∈ paragraphsIn opens bs) ↔ (true, c) ∈ Block.textsIn bs := by
  have hmem : c ∈ (paragraphsIn opens bs).map Prod.snd ↔
      c ∈ ((Block.textsIn bs).filter Prod.fst).map Prod.snd := by rw [paragraphsIn_texts]
  simpa using hmem

end Scope

/-! ## writing -/

section
variable {o : MarkdownSettings} {e : Scope} {f : Content → Content}
  {change : List Inline → List Inline}

/-- the texts of cells are written alike -/
def CellsAlike (o : MarkdownSettings) (e : Scope) (f : Content → Content) (cs : List Content) :
    Prop :=
  ∀ c ∈ cs, ∀ calls, writeInlines o {} calls (e.readCell (f c)) =
    writeInlines o {} calls (e.readCell c)

theorem writeContents_map {cs : List Content} (h : CellsAlike o e f cs) (calls : Calls) :
    writeContents o calls ((cs.map f).map e.readCell) = writeContents o calls (cs.map e.readCell) := by
  induction cs generalizing calls with
  | nil => rfl
  | cons c cs ih =>
    obtain ⟨hc, hcs⟩ := List.forall_mem_cons.1 h
    simp only [List.map_cons, writeContents, hc, ih hcs]

theorem writeRows_map {rows : List (List Content)} (h : ∀ r ∈ rows, CellsAlike o e f r)
    (calls : Calls) : writeRows o calls ((rows.map (·.map f)).map (·.map e.readCell)) =
      writeRows o calls (rows.map (·.map e.readCell)) := by
  induction rows generalizing calls with
  | nil => rfl
  | cons r rows ih =>
    obtain ⟨hr, hrows⟩ := List.forall_mem_cons.1 h
    simp only [List.map_cons, writeRows, writeContents_map hr, ih hrows]

/-- texts of paragraphs are written as they are after a change -/
def ParagraphsAlike (o : MarkdownSettings) (e : Scope) (f : Content → Content)
    (change : List Inline → List Inline) (cs : List (Bool × Content)) : Prop :=
  ∀ t ∈ cs, ∀ calls, writeInlines o {} calls (e.read t.1 (f t.2)) =
    writeInlines o {} calls (change (e.read t.1 t.2))

def OthersAlike (o : MarkdownSettings) (e : Scope) (f : Content → Content)
    (ts : List (Bool × Content)) : Prop :=
  ∀ c, (false, c) ∈ ts → ∀ inTable calls,
    writeInlines o {} calls ({ e with inTable }.read false (f c)) =
      writeInlines o {} calls ({ e with inTable }.read false c)

theorem OthersAlike.mono {ts us : List (Bool × Content)} (h : OthersAlike o e f ts)
    (hsub : us ⊆ ts) : OthersAlike o e f us := fun c hc => h c (hsub hc)

theorem OthersAlike.cells {cs : List Content} (h : OthersAlike o e f (cs.map (Prod.mk false))) :
    CellsAlike o e f cs := fun c hc calls => h c (List.mem_map_of_mem hc) true calls

mutual

theorem writeBlock_map (opens tight : Bool) (n : Notes) : ∀ b : Block Content,
    ParagraphsAlike o e f change (Scope.paragraphs opens b) → OthersAlike o e f b.texts →
    writeBlock o tight n (Scope.resolveBlock e opens (b.map f)) =
      writeBlock o tight n ((Scope.resolveBlock e opens b).onParagraphs change)
  | .heading level c, _, hothers => by
    have hc : writeInlines o {} n.calls (e.read false (f c)) =
        writeInlines o {} n.calls (e.read false c) :=
      hothers c (List.mem_singleton_self _) e.inTable n.calls
    simp only [Block.map, Scope.resolveBlock, Block.onParagraphs, writeBlock, hc]
  | .paragraph c, hparagraphs, _ => by
    have hc := hparagraphs _ (List.mem_singleton_self _) n.calls
    simp only [Block.map, Scope.resolveBlock, Block.onParagraphs, writeBlock, hc]
  | .quote inner, hparagraphs, hothers => by
    simp only [Block.map, Scope.resolveBlock, Block.onParagraphs, writeBlock,
      writeBlocks_mapIn false false n inner hparagraphs hothers]
  | .list marker start loose items, hparagraphs, hothers => by
    simp only [Block.map, Scope.resolveBlock, Block.onParagraphs, writeBlock,
      writeItems_mapIn (!loose) n items hparagraphs hothers]
  | .table columns head rows, _, hothers => by
    have hhead : CellsAlike o e f head := (hothers.mono (by
      rw [Block.texts, List.map_append]
      exact List.subset_append_left _ _)).cells
    have hrows : ∀ r ∈ rows, CellsAlike o e f r := fun r hr => (hothers.mono (by
      rw [Block.texts, List.map_append]
      refine List.Subset.trans ?_ (List.subset_append_right _ _)
      exact List.map_subset _ fun c hc => List.mem_flatten.2 ⟨r, hr, hc⟩)).cells
    simp only [Block.map, Scope.resolveBlock, Block.onParagraphs, writeBlock,
      writeContents_map hhead, writeRows_map hrows]
  | .footnote label inner, hparagraphs, hothers => by
    simp only [Block.map, Scope.resolveBlock, Block.onParagraphs, writeBlock,
      writeBlocks_mapIn false false n inner hparagraphs hothers]
  | .thematicBreak, _, _ | .code _ _, _, _ | .formula _, _, _ | .html _, _, _
  | .definition _, _, _ => rfl

/-- blocks with other texts are written as they are after a change of their paragraphs -/
theorem writeBlocks_mapIn (opens tight : Bool) (n : Notes) : ∀ bs : List (Block Content),
    ParagraphsAlike o e f change (Scope.paragraphsIn opens bs) →
    OthersAlike o e f (Block.textsIn bs) →
    writeBlocks o tight n (Scope.resolveRow e opens (Block.mapIn f bs)) =
      writeBlocks o tight n (Block.onParagraphsIn change (Scope.resolveRow e opens bs))
  | [], _, _ => rfl
  | b :: bs, hparagraphs, hothers => by
    obtain ⟨hb, hbs⟩ := List.forall_mem_append.1 hparagraphs
    have hb := writeBlock_map opens tight n b hb
      (hothers.mono (List.subset_append_left _ _))
    have hbs := fun n => writeBlocks_mapIn (opens && b.isDefinition) tight n bs hbs
      (hothers.mono (List.subset_append_right _ _))
    simp only [Block.mapIn, Scope.resolveRow, Block.onParagraphsIn, writeBlocks,
      Block.isDefinition_map, hb, hbs]

theorem writeItems_mapIn (tight : Bool) (n : Notes) : ∀ is : List (List (Block Content)),
    ParagraphsAlike o e f change (Scope.paragraphsInItems is) →
    OthersAlike o e f (Block.textsInItems is) →
    writeItems o tight n (Scope.resolveItems e (Block.mapInItems f is)) =
      writeItems o tight n (Block.onParagraphsInItems change (Scope.resolveItems e is))
  | [], _, _ => rfl
  | i :: is, hparagraphs, hothers => by
    obtain ⟨hi, his⟩ := List.forall_mem_append.1 hparagraphs
    have hi := writeBlocks_mapIn true tight n i hi (hothers.mono (List.subset_append_left _ _))
    have his := fun n => writeItems_mapIn tight n is his
      (hothers.mono (List.subset_append_right _ _))
    simp only [Block.mapInItems, Scope.resolveItems, Block.onParagraphsInItems, writeItems, hi, his]

end

/-- **Documents with other texts** are written as they are after a change of their paragraphs. -/
theorem writeDocument_mapIn {bs : List (Block Content)}
    (hparagraphs : ParagraphsAlike o (Scope.ofBlocks o bs) f change (Scope.paragraphsIn false bs))
    (hothers : OthersAlike o (Scope.ofBlocks o bs) f (Block.textsIn bs)) :
    writeDocument o (Scope.resolve o (Block.mapIn f bs)) =
      writeDocument o (Block.onParagraphsIn change (Scope.resolve o bs)) := by
  rw [Scope.resolve, Scope.ofBlocks_mapIn, Scope.resolve, writeDocument, writeDocument,
    writeBlocks_mapIn false false {} bs hparagraphs hothers]

end

end MarkdownModule.Markdown

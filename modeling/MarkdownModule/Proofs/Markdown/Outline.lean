import MarkdownModule.Proofs.Markdown.Blocks
import MarkdownModule.Proofs.Markdown.Places

/-!
# The places in an outline

The places of the line endings in the outline of a document are those in the content of its
paragraphs.

* `lineEnds_outline`   the places in the outline of a document
-/

namespace MarkdownModule.Markdown

/-! ## places in a text -/

theorem exists_of_mem_lineEndsFrom {start place : Nat} {s : Text} (h : place ∈ lineEndsFrom start s) :
    ∃ a b, s = a ++ '\n' :: b ∧ place = start + Text.byteSize a := by
  induction s generalizing start with
  | nil => exact absurd h List.not_mem_nil
  | cons c r ih =>
    have hlater : place ∈ lineEndsFrom (start + c.utf8Size) r →
        ∃ a b, c :: r = a ++ '\n' :: b ∧ place = start + Text.byteSize a := by
      intro h
      obtain ⟨a, b, rfl, rfl⟩ := ih h
      exact ⟨c :: a, b, rfl, by rw [Text.byteSize_cons, Nat.add_assoc]⟩
    rw [lineEndsFrom] at h
    split at h
    · next hc =>
      rcases List.mem_cons.1 h with rfl | h
      · exact ⟨[], r, by rw [hc]; rfl, rfl⟩
      · exact hlater h
    · exact hlater h

/-- a text of one byte at the place of a line ending -/
theorem lineEndsIn_end {source : Text} {place : Nat} (h : place ∈ lineEndsFrom 0 source) :
    lineEndsIn source (some (place, place + 1)) = [place] := by
  obtain ⟨a, b, rfl, hplace⟩ := exists_of_mem_lineEndsFrom h
  rw [Nat.zero_add] at hplace
  have hdrop : Text.dropBytes? place (a ++ '\n' :: b) = some ('\n' :: b) :=
    hplace ▸ Text.dropBytes?_byteSize a ('\n' :: b)
  have hone : Text.dropBytes? 1 ('\n' :: b) = some b := Text.dropBytes?_byteSize ['\n'] b
  have htake : Text.takeBytes? 1 ('\n' :: b) = some ['\n'] := by
    rw [Text.takeBytes?, hone, Option.map_some, List.length_cons, Nat.add_sub_cancel_left]
    rfl
  have hslice : Text.slice? place (place + 1) (a ++ '\n' :: b) = some ['\n'] := by
    rw [Text.slice?, if_pos (Nat.le_succ place), hdrop, Option.bind_some, Nat.add_sub_cancel_left,
      htake]
  rw [lineEndsIn, hslice]
  rfl

/-! ## places in inline content -/

section
variable {source : Text}

mutual

theorem Inline.lineEnds_outline : ∀ i : Inline, i.places ⊆ lineEndsFrom 0 source →
    i.outline.lineEnds source true = i.places
  | .softBreak place, h => lineEndsIn_end (h (List.mem_singleton_self place))
  | .emphasis inner, h => lineEnds_outlineInlines inner h
  | .strong inner, h => lineEnds_outlineInlines inner h
  | .struck inner, h => lineEnds_outlineInlines inner h
  | .link _ _ inner, h => lineEnds_outlineInlines inner h
  | .text _, _ | .decoded _, _ | .hardBreak, _ | .code _, _ | .formula _, _ | .html _, _
  | .autolink _ _, _ | .bareLink _ _, _ | .footnoteCall _, _ | .checkBox _, _ | .image _ _ _, _ => rfl

theorem lineEnds_outlineInlines : ∀ is : List Inline, placesIn is ⊆ lineEndsFrom 0 source →
    lineEndsInRow source true (outlineInlines is) = placesIn is
  | [], _ => rfl
  | i :: is, h => by
    obtain ⟨hi, his⟩ := List.append_subset.1 h
    rw [outlineInlines, lineEndsInRow, placesIn, i.lineEnds_outline hi,
      lineEnds_outlineInlines is his]

end

mutual

/-- outside of a paragraph no line ending counts -/
theorem Inline.lineEnds_outside : ∀ i : Inline, i.outline.lineEnds source false = []
  | .emphasis inner => lineEnds_outside inner
  | .strong inner => lineEnds_outside inner
  | .struck inner => lineEnds_outside inner
  | .link _ _ inner => lineEnds_outside inner
  | .softBreak _ | .text _ | .decoded _ | .hardBreak | .code _ | .formula _ | .html _
  | .autolink _ _ | .bareLink _ _ | .footnoteCall _ | .checkBox _ | .image _ _ _ => rfl

theorem lineEnds_outside : ∀ is : List Inline, lineEndsInRow source false (outlineInlines is) = []
  | [] => rfl
  | i :: is => by rw [outlineInlines, lineEndsInRow, i.lineEnds_outside, lineEnds_outside is]; rfl

end

theorem lineEnds_outlineParagraph {is : List Inline} (h : placesIn is ⊆ lineEndsFrom 0 source) :
    lineEndsInRow source true (outlineParagraph is) = placesInParagraph is := by
  unfold outlineParagraph
  split
  · exact lineEnds_outlineInlines _ fun place hplace => h (List.mem_cons_of_mem _ hplace)
  · next hno =>
    rw [placesInParagraph]
    · exact lineEnds_outlineInlines is h
    · exact hno

/-! ## places in blocks -/

def placesOfParagraphs (e : Scope) (ts : List (Bool × Content)) : List Nat :=
  ts.flatMap fun t => placesInParagraph (e.read t.1 t.2)

variable {e : Scope}

/-- all places in the content of paragraphs are those of line endings -/
def Scope.EndsIn (e : Scope) (source : Text) (ts : List (Bool × Content)) : Prop :=
  ∀ t ∈ ts, placesIn (e.read t.1 t.2) ⊆ lineEndsFrom 0 source

mutual

theorem lineEnds_outlineBlock (opens : Bool) : ∀ b : Block Content,
    e.EndsIn source (Scope.paragraphs opens b) →
    (outlineBlock (Scope.resolveBlock e opens b)).lineEnds source false =
      placesOfParagraphs e (Scope.paragraphs opens b)
  | .heading _ c, _ => lineEnds_outside (e.read false c)
  | .paragraph c, h => by
    rw [Scope.resolveBlock, outlineBlock, Node.lineEnds,
      lineEnds_outlineParagraph (h _ (List.mem_singleton_self _)), Scope.paragraphs,
      placesOfParagraphs, List.flatMap_singleton]
  | .quote inner, h => lineEnds_outlineBlocks false inner h
  | .list _ _ _ items, h => lineEnds_outlineItems items h
  | .footnote _ inner, h => lineEnds_outlineBlocks false inner h
  | .thematicBreak, _ | .code _ _, _ | .formula _, _ | .html _, _ | .table _ _ _, _
  | .definition _, _ => rfl

theorem lineEnds_outlineBlocks (opens : Bool) : ∀ bs : List (Block Content),
    e.EndsIn source (Scope.paragraphsIn opens bs) →
    lineEndsInRow source false (outlineBlocks (Scope.resolveRow e opens bs)) =
      placesOfParagraphs e (Scope.paragraphsIn opens bs)
  | [], _ => rfl
  | b :: bs, h => by
    obtain ⟨hb, hbs⟩ := List.forall_mem_append.1 h
    rw [Scope.resolveRow, outlineBlocks, lineEndsInRow, lineEnds_outlineBlock opens b hb,
      lineEnds_outlineBlocks (opens && b.isDefinition) bs hbs, Scope.paragraphsIn,
      placesOfParagraphs, placesOfParagraphs, placesOfParagraphs, List.flatMap_append]

theorem lineEnds_outlineItems : ∀ is : List (List (Block Content)),
    e.EndsIn source (Scope.paragraphsInItems is) →
    lineEndsInRow source false (outlineItems (Scope.resolveItems e is)) =
      placesOfParagraphs e (Scope.paragraphsInItems is)
  | [], _ => rfl
  | i :: is, h => by
    obtain ⟨hi, his⟩ := List.forall_mem_append.1 h
    rw [Scope.resolveItems, outlineItems, lineEndsInRow, Node.lineEnds,
      lineEnds_outlineBlocks true i hi, lineEnds_outlineItems is his, Scope.paragraphsInItems,
      placesOfParagraphs, placesOfParagraphs, placesOfParagraphs, List.flatMap_append]

end

/-- the places in the outline of a document are those in the content of its paragraphs -/
theorem lineEnds_outline {o : MarkdownSettings} {bs : List (Block Content)}
    (h : (Scope.ofBlocks o bs).EndsIn source (Scope.paragraphsIn false bs)) :
    (outline (Scope.resolve o bs)).lineEnds source false =
      placesOfParagraphs (Scope.ofBlocks o bs) (Scope.paragraphsIn false bs) :=
  lineEnds_outlineBlocks false bs h

end

end MarkdownModule.Markdown

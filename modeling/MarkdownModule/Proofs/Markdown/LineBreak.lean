import MarkdownModule.Markdown.Render

/-!
# Line endings as line breaks

What it means that the line endings of a document become line breaks, told of the document that was
read and not of its text.

* `Markdown.breakLines`   a document in which each line ending in a text of a paragraph is a break
* `Markdown.markAll`      inline content without places, in which some line endings are breaks
* `Markdown.writeInlines_mark_brokenParagraph`   both are written alike
-/

namespace MarkdownModule.Markdown

/-! ## the documents -/

mutual

/-- inline content in which each line ending is a line break; the text of an image is no content -/
def Inline.broken : Inline → Inline
  | .softBreak _ => .hardBreak
  | .emphasis inner => .emphasis (brokenInlines inner)
  | .strong inner => .strong (brokenInlines inner)
  | .struck inner => .struck (brokenInlines inner)
  | .link destination title inner => .link destination title (brokenInlines inner)
  | i => i

def brokenInlines : List Inline → List Inline
  | [] => []
  | i :: is => i.broken :: brokenInlines is

end

/-- the content of a paragraph in which each line ending is a line break, but for one that ends the
mark of a check box -/
def brokenParagraph : List Inline → List Inline
  | .checkBox checked :: .softBreak place :: is =>
    .checkBox checked :: .softBreak place :: brokenInlines is
  | is => brokenInlines is

namespace Block

variable {α : Type}

mutual

/-- a block with other texts in its paragraphs -/
def onParagraphs (change : α → α) : Block α → Block α
  | .paragraph content => .paragraph (change content)
  | .quote inner => .quote (onParagraphsIn change inner)
  | .list marker start loose items => .list marker start loose (onParagraphsInItems change items)
  | .footnote label inner => .footnote label (onParagraphsIn change inner)
  | b => b

def onParagraphsIn (change : α → α) : List (Block α) → List (Block α)
  | [] => []
  | b :: bs => b.onParagraphs change :: onParagraphsIn change bs

def onParagraphsInItems (change : α → α) : List (List (Block α)) → List (List (Block α))
  | [] => []
  | i :: is => onParagraphsIn change i :: onParagraphsInItems change is

end

end Block

/-- blocks with the line endings of their paragraphs as line breaks -/
def breakLines (bs : List Resolved) : List Resolved := Block.onParagraphsIn brokenParagraph bs

/-! ## inline content without places -/

mutual

/-- inline content without the places of its line endings; those with `breaks` are line breaks -/
def Inline.mark (breaks : Nat → Bool) : Inline → Inline
  | .softBreak place => if breaks place then .hardBreak else .softBreak 0
  | .emphasis inner => .emphasis (markAll breaks inner)
  | .strong inner => .strong (markAll breaks inner)
  | .struck inner => .struck (markAll breaks inner)
  | .link destination title inner => .link destination title (markAll breaks inner)
  | .image destination title inner => .image destination title (markAll breaks inner)
  | i => i

def markAll (breaks : Nat → Bool) : List Inline → List Inline
  | [] => []
  | i :: is => i.mark breaks :: markAll breaks is

end

def never (_ : Nat) : Bool := false

theorem markAll_append (breaks : Nat → Bool) (is js : List Inline) :
    markAll breaks (is ++ js) = markAll breaks is ++ markAll breaks js := by
  induction is with
  | nil => rfl
  | cons i is ih => rw [List.cons_append, markAll, ih, markAll, List.cons_append]

mutual

/-- the places of the line endings in inline content; the text of an image is no content -/
def Inline.places : Inline → List Nat
  | .softBreak place => [place]
  | .emphasis inner => placesIn inner
  | .strong inner => placesIn inner
  | .struck inner => placesIn inner
  | .link _ _ inner => placesIn inner
  | _ => []

def placesIn : List Inline → List Nat
  | [] => []
  | i :: is => i.places ++ placesIn is

end

/-- the places of the line endings of a paragraph that may be line breaks -/
def placesInParagraph : List Inline → List Nat
  | .checkBox _ :: .softBreak _ :: is => placesIn is
  | is => placesIn is

theorem placesInParagraph_subset {is : List Inline} {place : Nat}
    (h : place ∈ placesInParagraph is) : place ∈ placesIn is := by
  unfold placesInParagraph at h
  split at h
  · exact List.mem_cons_of_mem _ h
  · exact h

theorem placesIn_append (is js : List Inline) :
    placesIn (is ++ js) = placesIn is ++ placesIn js := by
  induction is with
  | nil => rfl
  | cons i is ih => rw [List.cons_append, placesIn, ih, placesIn, List.append_assoc]

/-! ## writing -/

section
variable (o : MarkdownSettings)

mutual

/-- places are not written, and breaks are not written in the text of an image -/
theorem Inline.write_mark {breaks : Nat → Bool} {p : InlinePlace}
    (h : ∀ place, breaks place = true → p.inImage = true) (cs : Calls) :
    ∀ i : Inline, (i.mark breaks).write o p cs = i.write o p cs
  | .softBreak place => by
    cases hbreak : breaks place with
    | false => simp only [Inline.mark, hbreak, Bool.false_eq_true, if_false, Inline.write]
    | true =>
      simp only [Inline.mark, hbreak, Inline.write, InlinePlace.tagged, h place hbreak, if_pos,
        List.nil_append]
  | .emphasis inner => by simp only [Inline.mark, Inline.write, writeInlines_mark h cs inner]
  | .strong inner => by simp only [Inline.mark, Inline.write, writeInlines_mark h cs inner]
  | .struck inner => by simp only [Inline.mark, Inline.write, writeInlines_mark h cs inner]
  | .link _ _ inner => by
    simp only [Inline.mark, Inline.write,
      writeInlines_mark (p := ⟨p.inImage, true⟩) h cs inner]
  | .image _ _ inner => by
    simp only [Inline.mark, Inline.write,
      writeInlines_mark (p := ⟨true, p.inLink⟩) (fun _ _ => rfl) cs inner]
  | .text _ | .decoded _ | .hardBreak | .code _ | .formula _ | .html _ | .autolink _ _
  | .bareLink _ _ | .footnoteCall _ | .checkBox _ => rfl

theorem writeInlines_mark {breaks : Nat → Bool} {p : InlinePlace}
    (h : ∀ place, breaks place = true → p.inImage = true) (cs : Calls) :
    ∀ is, writeInlines o p cs (markAll breaks is) = writeInlines o p cs is
  | [] => rfl
  | i :: is => by
    simp only [markAll, writeInlines, i.write_mark h cs, writeInlines_mark h _ is]

end

mutual

/-- content that is marked with all its breaks is written as it is with its breaks -/
theorem Inline.write_mark_broken {breaks : Nat → Bool} {p : InlinePlace} (h : p.inImage = false)
    (cs : Calls) : ∀ i : Inline, (∀ place ∈ i.places, breaks place = true) →
      (i.mark breaks).write o p cs = i.broken.write o p cs
  | .softBreak place, hi => by
    simp only [Inline.mark, hi place (List.mem_singleton_self place), if_true, Inline.broken]
  | .emphasis inner, hi => by
    simp only [Inline.mark, Inline.broken, Inline.write, writeInlines_mark_broken h cs inner hi]
  | .strong inner, hi => by
    simp only [Inline.mark, Inline.broken, Inline.write, writeInlines_mark_broken h cs inner hi]
  | .struck inner, hi => by
    simp only [Inline.mark, Inline.broken, Inline.write, writeInlines_mark_broken h cs inner hi]
  | .link _ _ inner, hi => by
    simp only [Inline.mark, Inline.broken, Inline.write,
      writeInlines_mark_broken (p := ⟨p.inImage, true⟩) h cs inner hi]
  | .image _ _ inner, _ => by
    simp only [Inline.mark, Inline.broken, Inline.write,
      writeInlines_mark o (p := ⟨true, p.inLink⟩) (fun _ _ => rfl) cs inner]
  | .text _, _ | .decoded _, _ | .hardBreak, _ | .code _, _ | .formula _, _ | .html _, _
  | .autolink _ _, _ | .bareLink _ _, _ | .footnoteCall _, _ | .checkBox _, _ => rfl

theorem writeInlines_mark_broken {breaks : Nat → Bool} {p : InlinePlace} (h : p.inImage = false)
    (cs : Calls) : ∀ is : List Inline, (∀ place ∈ placesIn is, breaks place = true) →
      writeInlines o p cs (markAll breaks is) = writeInlines o p cs (brokenInlines is)
  | [], _ => rfl
  | i :: is, his => by
    obtain ⟨hi, his⟩ := List.forall_mem_append.1 his
    simp only [markAll, brokenInlines, writeInlines, i.write_mark_broken h cs hi,
      writeInlines_mark_broken h _ is his]

end

/-- a paragraph that is marked with all its breaks is written as it is with its breaks -/
theorem writeInlines_mark_brokenParagraph {breaks : Nat → Bool} {is : List Inline}
    (hnodup : (placesIn is).Nodup)
    (h : ∀ place ∈ placesIn is, breaks place = true ↔ place ∈ placesInParagraph is) (cs : Calls) :
    writeInlines o {} cs (markAll breaks is) = writeInlines o {} cs (brokenParagraph is) := by
  unfold brokenParagraph
  split
  · next checked place is =>
    obtain ⟨hplace, -⟩ := List.nodup_cons.1 hnodup
    obtain ⟨hfirst, hrest⟩ := List.forall_mem_cons.1 h
    have hfirst : breaks place = false := eq_false_of_ne_true fun hbreak =>
      hplace (hfirst.1 hbreak)
    have hrest : ∀ place ∈ placesIn is, breaks place = true := fun q hq => (hrest q hq).2 hq
    simp only [markAll, writeInlines, Inline.mark, hfirst, Bool.false_eq_true, if_false,
      Inline.write, writeInlines_mark_broken o (p := {}) rfl _ is hrest]
  · next hno =>
    refine writeInlines_mark_broken o rfl cs is fun place hplace => (h place hplace).2 ?_
    rw [placesInParagraph]
    · exact hplace
    · exact hno

end

end MarkdownModule.Markdown

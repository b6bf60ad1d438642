import MarkdownModule.Proofs.Markdown.Marked.Document
import MarkdownModule.Proofs.Markdown.Splice
import Mathlib.Data.List.Flatten

/-!
# Rendering with line breaks

The line endings of paragraphs are made line breaks by backslashes in the text of the document.  Where
no construct of the document is changed by them, it is rendered as the document that was read, with
its line endings as line breaks.

* `Markdown.firm`            documents in which all constructs stay
* `Markdown.render_breaks`   they are rendered with line breaks
-/

namespace MarkdownModule.Markdown

/-- a label that ends at a line ending is another one after a backslash was put there: the reference
is lost, although the line ending in its text could have been a line break -/
theorem render_reference_lost :
    render { breaks := some true } "[foo\nbar]\n\n[foo bar]: /url\n".toList =
        "<p>[foo<br />\nbar]</p>\n".toList ∧
      closeText (writeDocument (RendererOptions.settings { breaks := some true })
        (breakLines (parse (RendererOptions.settings { breaks := some true })
          (unifyLineEnds "[foo\nbar]\n\n[foo bar]: /url\n".toList)))) =
        "<p><a href=\"/url\">foo<br />\nbar</a></p>\n".toList := by
  decide +kernel

open Content (plain broken)

/-! ## texts that are written alike -/

section
variable {e : Scope} {breaks : Nat → Bool} {c : Content}

theorem read_eq (he : e.settings.autolinkLiteral = false) (inItem : Bool) (c : Content) :
    e.read inItem c = e.readPieces inItem c := by
  rw [Scope.read, he]
  rfl

/-- places are not written -/
theorem writeInlines_plain (he : e.settings.autolinkLiteral = false) (o : MarkdownSettings)
    (inItem : Bool) (calls : Calls) (c : Content) :
    writeInlines o {} calls (e.read inItem c.plain) = writeInlines o {} calls (e.read inItem c) := by
  rw [read_eq he, read_eq he, plain, Scope.readPieces_mark he,
    writeInlines_mark o (fun _ h => by cases h)]

theorem placesIn_read (he : e.settings.autolinkLiteral = false)
    (h : c.lineEnds.length = c.text.count '\n') (inItem : Bool) :
    (placesIn (e.read inItem c)).Sublist c.lineEnds := by
  have hplaces := Scope.placesIn_readPieces he inItem c
  rw [Scope.endsOf_lineEnds h] at hplaces
  rw [read_eq he]
  exact hplaces

/-- a firm paragraph with backslashes is written with line breaks -/
theorem writeInlines_broken (he : e.settings.autolinkLiteral = false) (o : MarkdownSettings)
    {inItem : Bool} (hlength : c.lineEnds.length = c.text.count '\n') (hnodup : c.lineEnds.Nodup)
    (hfirm : e.firm breaks inItem c = true)
    (hplaces : ∀ place ∈ c.lineEnds,
      breaks place = true ↔ place ∈ placesInParagraph (e.read inItem c)) (calls : Calls) :
    writeInlines o {} calls (e.read inItem (c.broken breaks)) =
      writeInlines o {} calls (brokenParagraph (e.read inItem c)) := by
  have hsub := placesIn_read he hlength inItem
  have hbroken : e.read inItem (c.broken breaks) = markAll breaks (e.read inItem c) := by
    rw [read_eq he, read_eq he, broken]
    rw [read_eq he] at hplaces
    exact Scope.readPieces_breakEnds he hlength hnodup (fun place hplace => (hplaces _ hplace).1)
      hfirm
  rw [hbroken]
  exact writeInlines_mark_brokenParagraph o (hsub.nodup hnodup)
    (fun place hplace => hplaces place (hsub.subset hplace)) calls

end

/-! ## documents -/

/-- whether all constructs of a document stay when each line ending in a text of a paragraph gets a
backslash: the lines before them end with no mark of another construct, the paragraphs are firm, and
none of them begins with a definition then -/
def firm (o : MarkdownSettings) (source : Text) : Bool :=
  let bs := readDocument o source
  let e := Scope.ofBlocks o bs
  let breaks := ((outline (Scope.resolve o bs)).lineEnds source false).contains
  (documentLines source).all (fun l => !breaks l.stop || endsOpenly l.rest.getLast?) &&
    (Scope.paragraphsIn false bs).all fun t =>
      e.firm breaks t.1 t.2 && (Definition.read? (t.2.broken breaks).text).isNone

/-- the places of a document are those of its paragraphs -/
theorem places_document {o : MarkdownSettings} (ho : o.autolinkLiteral = false) (source : Text) :
    (outline (parse o source)).lineEnds source false =
      placesOfParagraphs (Scope.ofBlocks o (readDocument o source))
        (Scope.paragraphsIn false (readDocument o source)) := by
  obtain ⟨hends, hlength⟩ := readDocument_lineEnds o source
  refine lineEnds_outline fun t ht place hplace => ?_
  have htext := Scope.exists_paragraphsIn.1 ⟨t.1, ht⟩
  have hmem := (placesIn_read ho (hlength t.2 htext) t.1).subset hplace
  exact hends.subset (List.mem_flatMap.2 ⟨_, htext, hmem⟩)

theorem nodup_lineEndsOf (o : MarkdownSettings) (source : Text) :
    (lineEndsOf (Block.textsIn (readDocument o source))).Nodup :=
  Stack.nodup_of_subperm (readDocument_lineEnds o source).1 (nodup_lineEndsFrom 0 source)

/-- each of the places stands in a paragraph -/
theorem exists_paragraph {o : MarkdownSettings} (ho : o.autolinkLiteral = false) {source : Text}
    {place : Nat} (h : place ∈ (outline (parse o source)).lineEnds source false) :
    ∃ t ∈ Scope.paragraphsIn false (readDocument o source),
      (true, t.2) ∈ Block.textsIn (readDocument o source) ∧ place ∈ t.2.lineEnds ∧
      place ∈ placesInParagraph ((Scope.ofBlocks o (readDocument o source)).read t.1 t.2) := by
  rw [places_document ho] at h
  obtain ⟨t, ht, hmem⟩ := List.mem_flatMap.1 h
  have htext := Scope.exists_paragraphsIn.1 ⟨t.1, ht⟩
  obtain ⟨-, hlength⟩ := readDocument_lineEnds o source
  exact ⟨t, ht, htext,
    (placesIn_read ho (hlength _ htext) t.1).subset (placesInParagraph_subset hmem), hmem⟩

/-- places are not written -/
theorem writeDocument_plain {o : MarkdownSettings} (ho : o.autolinkLiteral = false)
    (bs : List (Block Content)) : writeDocument o (Scope.resolve o (Block.mapIn plain bs)) =
      writeDocument o (Scope.resolve o bs) := by
  have hparagraphs : ParagraphsAlike o (Scope.ofBlocks o bs) plain id
      (Scope.paragraphsIn false bs) := fun t _ calls => writeInlines_plain ho o t.1 calls t.2
  rw [writeDocument_mapIn hparagraphs fun c _ inTable calls =>
    writeInlines_plain (e := { Scope.ofBlocks o bs with inTable }) ho o false calls c,
    Block.onParagraphsIn_id]

/-- a paragraph holds the places that stand in it, and no other one does -/
theorem eq_of_mem_paragraph {o : MarkdownSettings} {source : Text} {t u : Bool × Content}
    (ht : t ∈ Scope.paragraphsIn false (readDocument o source))
    (hu : u ∈ Scope.paragraphsIn false (readDocument o source)) {place : Nat}
    (hpt : place ∈ t.2.lineEnds) (hpu : place ∈ u.2.lineEnds) : t = u := by
  have hnodup := nodup_lineEndsOf o source
  have hsnd : ∀ ts : List (Bool × Content), lineEndsOf ts = (ts.map Prod.snd).flatMap (·.lineEnds) :=
    fun ts => by rw [lineEndsOf, List.flatMap_map]
  refine Stack.eq_of_mem_lineEnds ?_ ht hu hpt hpu
  rw [hsnd, Scope.paragraphsIn_texts, ← hsnd]
  exact (List.filter_sublist.flatMap _).nodup hnodup

/-- **A document is rendered with line breaks** if all its constructs stay: each line ending in a text
of a paragraph is a line break, and nothing else is changed. -/
theorem render_breaks (o : RendererOptions) (body : Text) (hbreaks : o.breaks = some true)
    (hlinks : o.settings.autolinkLiteral = false)
    (hfirm : firm o.settings (unifyLineEnds body) = true) :
    render o body =
      closeText (writeDocument o.settings (breakLines (parse o.settings (unifyLineEnds body)))) := by
  have hprepare : prepare o body = hardBreaks (unifyLineEnds body)
      (outline (parse o.settings (unifyLineEnds body))) := by
    rw [prepare, hbreaks]
    exact congrArg (Option.getD · _) (hardBreaks?_eq _ _)
  rw [render, hprepare, hardBreaks]
  generalize unifyLineEnds body = source at hfirm ⊢
  generalize o.settings = o at hlinks hfirm ⊢
  have hplaces := places_document hlinks source
  have hin := fun place => @exists_paragraph o hlinks source place
  obtain ⟨-, hlength⟩ := readDocument_lineEnds o source
  have hnodup := nodup_lineEndsOf o source
  unfold firm at hfirm
  dsimp only at hfirm
  rw [← parse] at hfirm
  generalize (outline (parse o source)).lineEnds source false = places at hplaces hin hfirm ⊢
  obtain ⟨hlines, hparagraphs⟩ := Bool.and_eq_true_iff.1 hfirm
  have hparagraph : ∀ t ∈ Scope.paragraphsIn false (readDocument o source),
      (Scope.ofBlocks o (readDocument o source)).firm places.contains t.1 t.2 = true ∧
        Definition.read? (t.2.broken places.contains).text = none := fun t ht =>
    (Bool.and_eq_true_iff.1 (List.all_eq_true.1 hparagraphs t ht)).imp_right
      Option.isNone_iff_eq_none.1
  have hread := @readDocument_breakAt o places source
    (fun l hl hbreak => by
      have h := List.all_eq_true.1 hlines l hl
      rw [hbreak] at h
      exact h)
    (fun place hplace => by
      obtain ⟨t, -, htext, hmem, -⟩ := hin place hplace
      exact ⟨t.2, htext, hmem⟩)
    fun c hc => by
      obtain ⟨inItem, ht⟩ := Scope.exists_paragraphsIn.2 hc
      exact (hparagraph _ ht).2
  rw [parse, ← writeDocument_plain hlinks, hread, breakLines, parse, writeDocument_mapIn]
  · intro t ht calls
    have htext := Scope.exists_paragraphsIn.1 ⟨t.1, ht⟩
    refine writeInlines_broken hlinks o (hlength _ htext) ?_ (hparagraph t ht).1
      (fun place hplace => ⟨fun hbreak => ?_, fun hmem => ?_⟩) calls
    · exact (List.sublist_flatten_of_mem (List.mem_map_of_mem htext)).nodup hnodup
    · obtain ⟨u, hu, -, hends, hmem⟩ := hin place (List.contains_iff_mem.1 hbreak)
      rw [eq_of_mem_paragraph ht hu hplace hends]
      exact hmem
    · rw [hplaces]
      exact List.contains_iff_mem.2 (List.mem_flatMap.2 ⟨t, ht, hmem⟩)
  · intro c hc inTable calls
    rw [broken_of_unmarked fun place hplace => eq_false_of_ne_true fun hbreak => ?_]
    · exact writeInlines_plain hlinks o false calls c
    · obtain ⟨t, -, htext, hends, -⟩ := hin place (List.contains_iff_mem.1 hbreak)
      cases Stack.eq_of_mem_lineEnds hnodup hc htext hplace hends

/-- a list with emphasis before a line ending and a link over one, and a quotation -/
theorem render_breaks_list :
    (RendererOptions.settings { breaks := some true }).autolinkLiteral = false ∧
      firm (RendererOptions.settings { breaks := some true })
        (unifyLineEnds "- [ ] *a*\n  b [c\n  d](/e) `f`\n\n> x\n> y\n".toList) = true ∧
      render { breaks := some true } "- [ ] *a*\n  b [c\n  d](/e) `f`\n\n> x\n> y\n".toList =
        closeText (writeDocument (RendererOptions.settings { breaks := some true })
          (breakLines (parse (RendererOptions.settings { breaks := some true })
            (unifyLineEnds "- [ ] *a*\n  b [c\n  d](/e) `f`\n\n> x\n> y\n".toList)))) := by
  have hfirm : firm (RendererOptions.settings { breaks := some true })
      (unifyLineEnds "- [ ] *a*\n  b [c\n  d](/e) `f`\n\n> x\n> y\n".toList) = true := by
    decide +kernel
  exact ⟨rfl, hfirm, render_breaks { breaks := some true } _ rfl rfl hfirm⟩

end MarkdownModule.Markdown

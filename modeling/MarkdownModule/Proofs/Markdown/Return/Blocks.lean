import MarkdownModule.Proofs.Markdown.Return.Scan
import MarkdownModule.Proofs.Markdown.Return.Write

/-!
# Carriage returns in blocks that are written

The text of a footnote is written at the end of the document, and only if the footnote is called.  The
line endings at its end may be dropped there; no carriage return is among them, since each block ends
with a tag or holds none.

* `Block.decodedTexts`       the texts of a block that references were replaced in
* `Block.notes`              the footnotes in a block
* `decodedTextsOf`           the texts that a document is written with
* `returns_writeDocument`    a document in HTML
-/

namespace MarkdownModule.Markdown

/-! ## texts of blocks -/

namespace Block

mutual

/-- the texts that references were replaced in and that a block is written with at its place: a row
of a table has one cell for each column -/
def decodedTexts : Resolved → List Text
  | .heading _ content => decodedTextsIn false content
  | .paragraph content => decodedTextsIn false content
  | .code language _ => [language]
  | .quote inner => decodedTextsInRow inner
  | .list _ _ _ items => decodedTextsInItems items
  | .table columns head rows =>
    (head.take columns.length).flatMap (decodedTextsIn false)
      ++ rows.flatMap fun r => (r.take columns.length).flatMap (decodedTextsIn false)
  | _ => []

def decodedTextsInRow : List Resolved → List Text
  | [] => []
  | x :: xs => x.decodedTexts ++ decodedTextsInRow xs

def decodedTextsInItems : List (List Resolved) → List Text
  | [] => []
  | i :: is => decodedTextsInRow i ++ decodedTextsInItems is

end

mutual

/-- the footnotes in a block with their blocks, each before the one that holds it ends -/
def notes : Resolved → List (Text × List Resolved)
  | .quote inner => notesIn inner
  | .list _ _ _ items => notesInItems items
  | .footnote label inner => notesIn inner ++ [(label, inner)]
  | _ => []

def notesIn : List Resolved → List (Text × List Resolved)
  | [] => []
  | x :: xs => x.notes ++ notesIn xs

def notesInItems : List (List Resolved) → List (Text × List Resolved)
  | [] => []
  | i :: is => notesIn i ++ notesInItems is

end

end Block

/-- the texts that references were replaced in and that a document is written with: those of a footnote
only if it is called -/
def decodedTextsOf (o : MarkdownSettings) (bs : List Resolved) : List Text :=
  Block.decodedTextsInRow bs ++ (writeBlocks o false {} bs).2.calls.flatMap fun call =>
    (((Block.notesIn bs).lookup call.1).map Block.decodedTextsInRow).getD []

/-! ## rows of blocks -/

def Written.text : Written → Text
  | .hidden => []
  | .bare s => s
  | .block s => s

section
variable {ts us : List Text} {s t : Text}

theorem ReturnsFrom.endLine (h : ReturnsFrom ts s) : ReturnsFrom ts (Footnote.endLine s) := by
  unfold Footnote.endLine
  split
  · exact h
  · exact h.before (plain_single (by decide))

/-- blocks as they are written, each with the texts that its carriage returns come from -/
abbrev RowReturns : List Resolved → List Written → Prop :=
  List.Forall₂ fun x w => ReturnsFrom x.decodedTexts w.text

variable {xs : List Resolved} {ws : List Written}

theorem RowReturns.put (h : RowReturns xs ws) (first : Bool) (hs : ReturnsFrom ts s) :
    ReturnsFrom (ts ++ Block.decodedTextsInRow xs) (putBlocks first s ws) := by
  induction h generalizing ts s first with
  | nil =>
    rw [Block.decodedTextsInRow, List.append_nil]
    exact hs
  | @cons x w xs ws hw _ ih =>
    rw [Block.decodedTextsInRow, ← List.append_assoc]
    cases w with
    | hidden =>
      have htexts := hs.append hw
      rw [Written.text, List.append_nil] at htexts
      exact ih first htexts
    | bare u =>
      rw [putBlocks]
      refine ih false (ReturnsFrom.append ?_ hw)
      split
      · exact hs
      · exact hs.endLine
    | block u => exact ih false (hs.endLine.append hw)

theorem RowReturns.putTag (h : RowReturns xs ws) {tag : String} (htag : Plain tag.toList) :
    ReturnsFrom (Block.decodedTextsInRow xs) (putBlocks true tag.toList ws) :=
  h.put true (.of_plain htag)

theorem RowReturns.item (h : RowReturns xs ws) :
    ReturnsFrom (Block.decodedTextsInRow xs) (writeItem ws) := by
  have hopen : Plain "<li>".toList := by decide
  have hput := h.putTag hopen
  have hclose : Plain "</li>".toList := by decide
  unfold writeItem
  dsimp only
  split
  · exact hput.endLine.before hclose
  · exact hput.before hclose

theorem RowReturns.quote (h : RowReturns xs ws) :
    ReturnsFrom (Block.decodedTextsInRow xs) (writeQuote ws) :=
  (h.putTag (by decide)).endLine.before (by decide)

theorem plain_listTags (marker : Char) (start : Nat) :
    Plain (listTags marker start).1 ∧ Plain (listTags marker start).2 := by
  have hopen : Plain "<ol".toList := by decide
  have hstart : Plain " start=\"".toList := by decide
  have hquote : Plain ['"'] := by decide
  have hclose : Plain "</ol>".toList := by decide
  unfold listTags
  split
  · have hnumber := plain_ite (p := start = 1) List.not_mem_nil
      ((hstart.append (Footnote.plain_digits start)).append hquote)
    exact ⟨(hopen.append hnumber).append (plain_single (by decide)), hclose⟩
  · exact ⟨by decide, by decide⟩

theorem returns_writeList {items : List (List Resolved)} {written : List Text}
    (h : List.Forall₂ (fun i t => ReturnsFrom (Block.decodedTextsInRow i) t) items written)
    (marker : Char) (start : Nat) :
    ReturnsFrom (Block.decodedTextsInItems items) (writeList marker start written) := by
  obtain ⟨hopen, hclose⟩ := plain_listTags marker start
  have hitems : ReturnsFrom (Block.decodedTextsInItems items) (written.flatMap ('\n' :: ·)) := by
    induction h with
    | nil => exact .of_plain List.not_mem_nil
    | cons hi _ ih => exact (hi.behind (by decide)).append ih
  exact (hitems.after hopen).before (hclose.cons (by decide))

/-! ## single blocks -/

theorem returns_writeCode (language : Text) {text : Text} (h : Plain text) :
    ReturnsFrom [language] (writeCode language text) := by
  have hopen : Plain "<pre><code".toList := by decide
  have hclass : Plain " class=\"language-".toList := by decide
  have hclose : Plain "</code></pre>".toList := by decide
  have htext := ((plain_escape h).cons (c := '>') (by decide)).append hclose
  unfold writeCode
  rw [List.append_assoc]
  refine ReturnsFrom.before (.after ?_ hopen) htext
  split
  · next hempty =>
    rw [List.isEmpty_iff.1 hempty]
    exact iff_of_false List.not_mem_nil fun ⟨t, ht, hmem⟩ => by
      cases List.mem_singleton.1 ht
      cases hmem
  · exact ((returns_escape language).after hclass).before (plain_single (by decide))

theorem plain_writeFormula (h : Plain s) : Plain (writeFormula s) := by
  have hopen : Plain "<pre><code class=\"language-math math-display\">".toList := by decide
  have hclose : Plain "</code></pre>".toList := by decide
  exact (hopen.append (plain_escape h)).append hclose

theorem returns_writeHeading (level : Nat) (h : ReturnsFrom ts s) :
    ReturnsFrom ts (writeHeading level s) := by
  have hopen : Plain "<h".toList := by decide
  have hclose : Plain "</h".toList := by decide
  have hlevel := Footnote.plain_digits level
  exact ((((h.behind (by decide)).after (hopen.append hlevel)).before hclose).before hlevel).before
    (plain_single (by decide))

/-! ## tables -/

section
variable {b : Prop} {name : String} (hname : Plain name.toList)
include hname

theorem returns_writeCells (o : MarkdownSettings) {cells : List (List Inline)}
    (h : ∀ c ∈ cells, SoundInlines b c) (columns : List Alignment) (cs : Calls) :
    ReturnsFrom ((cells.take columns.length).flatMap (decodedTextsIn false))
      (writeCells name.toList columns (writeContents o cs cells).1) := by
  have halign : ∀ a, Plain (alignAttribute a) := by
    intro a
    cases a <;> decide
  induction columns generalizing cells cs with
  | nil =>
    rw [List.length_nil, List.take_zero]
    exact .of_plain List.not_mem_nil
  | cons a columns ih =>
    have hopen : Plain ('\n' :: '<' :: name.toList ++ alignAttribute a) :=
      ((hname.cons (by decide)).cons (by decide)).append (halign a)
    have hclose : Plain ('<' :: '/' :: name.toList) := (hname.cons (by decide)).cons (by decide)
    cases cells with
    | nil =>
      have hrest := ih (nofun : ∀ c ∈ [], SoundInlines b c) cs
      rw [List.take_nil] at hrest ⊢
      rw [writeContents, writeCells]
      refine .after (hrest.behind (by decide)) ((hopen.append (plain_single (by decide))).append hclose)
    | cons c cells =>
      obtain ⟨hc, hcells⟩ := List.forall_mem_cons.1 h
      rw [writeContents, writeCells, List.length_cons, List.take_succ_cons, List.flatMap_cons]
      have hcell := ((hc.write o {} cs).behind (c := '>') (by decide)).after hopen
      exact (hcell.before hclose).append ((ih hcells _).behind (by decide))

theorem returns_writeRow (o : MarkdownSettings) {cells : List (List Inline)}
    (h : ∀ c ∈ cells, SoundInlines b c) (columns : List Alignment) (cs : Calls) :
    ReturnsFrom ((cells.take columns.length).flatMap (decodedTextsIn false))
      (writeRow name columns (writeContents o cs cells).1) :=
  ((returns_writeCells hname o h columns cs).after (by decide)).before
    (by decide)

theorem returns_writeRows (o : MarkdownSettings) {rows : List (List (List Inline))}
    (h : ∀ r ∈ rows, ∀ c ∈ r, SoundInlines b c) (columns : List Alignment) (cs : Calls) :
    ReturnsFrom (rows.flatMap fun r => (r.take columns.length).flatMap (decodedTextsIn false))
      ((writeRows o cs rows).1.flatMap (writeRow name columns)) := by
  induction rows generalizing cs with
  | nil => exact .of_plain List.not_mem_nil
  | cons r rows ih =>
    obtain ⟨hr, hrows⟩ := List.forall_mem_cons.1 h
    exact (returns_writeRow hname o hr columns cs).append (ih hrows _)

end

theorem returns_writeTable {b : Prop} (o : MarkdownSettings) {head : List (List Inline)}
    {rows : List (List (List Inline))} (hhead : ∀ c ∈ head, SoundInlines b c)
    (hrows : ∀ r ∈ rows, ∀ c ∈ r, SoundInlines b c) (columns : List Alignment) (cs cs' : Calls) :
    ReturnsFrom (Block.decodedTexts (.table columns head rows))
      (writeTable columns (writeContents o cs head).1 (writeRows o cs' rows).1) := by
  have hopen : Plain "<table>\n<thead>".toList := by decide
  have hmid : Plain "\n</thead>".toList := by decide
  have hbody : Plain "\n<tbody>".toList := by decide
  have hend : Plain "\n</tbody>".toList := by decide
  have hclose : Plain "\n</table>".toList := by decide
  have hth := returns_writeRow (show Plain "th".toList by decide) o hhead columns cs
  have htd := returns_writeRows (show Plain "td".toList by decide) o hrows columns cs'
  unfold writeTable
  dsimp only
  refine (((hth.after hopen).before hmid).append ?_).before hclose
  split
  · next hempty =>
    rwa [List.isEmpty_iff.1 hempty, List.flatMap_nil] at htd
  · exact (htd.after hbody).before hend

end

/-! ## blocks -/

section
variable {b : Prop} {o : MarkdownSettings} {xs : List Resolved}

theorem returns_writeBlocks
    (h : ∀ x ∈ xs, ∀ tight n, ReturnsFrom x.decodedTexts (writeBlock o tight n x).1.text)
    (tight : Bool) (n : Notes) : RowReturns xs (writeBlocks o tight n xs).1 := by
  induction xs generalizing n with
  | nil => exact .nil
  | cons x xs ih =>
    obtain ⟨hx, hxs⟩ := List.forall_mem_cons.1 h
    exact .cons (hx tight n) (ih hxs _)

theorem returns_writeItems {items : List (List Resolved)} (h : ∀ i ∈ items, ∀ x ∈ i, ∀ tight n,
      ReturnsFrom x.decodedTexts (writeBlock o tight n x).1.text) (tight : Bool) (n : Notes) :
    List.Forall₂ (fun i t => ReturnsFrom (Block.decodedTextsInRow i) t) items
      (writeItems o tight n items).1 := by
  induction items generalizing n with
  | nil => exact .nil
  | cons i items ih =>
    obtain ⟨hi, hitems⟩ := List.forall_mem_cons.1 h
    exact .cons (returns_writeBlocks hi tight n).item (ih hitems _)

/-- the carriage returns of what is written at the place of a block -/
theorem Block.Sound.write {x : Resolved} (h : x.Sound b (SoundInlines b)) (o : MarkdownSettings)
    (tight : Bool) (n : Notes) : ReturnsFrom x.decodedTexts (writeBlock o tight n x).1.text := by
  have hopen : Plain "<p>".toList := by decide
  have hclose : Plain "</p>".toList := by decide
  induction h generalizing tight n with
  | thematicBreak => exact .of_plain (show Plain "<hr />".toList by decide)
  | heading h => exact returns_writeHeading _ (h.write o {} _)
  | paragraph h =>
    rw [writeBlock]
    dsimp only
    split
    · exact h.write o {} _
    · exact ((h.write o {} _).after hopen).before hclose
  | code hl h => exact returns_writeCode _ h
  | formula h => exact .of_plain (plain_writeFormula h)
  | html h => exact .of_plain (plain_html o.rawHtml h)
  | quote h ih => exact (returns_writeBlocks ih false n).quote
  | list h ih => exact returns_writeList (returns_writeItems ih _ n) _ _
  | table hhead hrows => exact returns_writeTable o hhead hrows _ _ _
  | definition h => exact .of_plain List.not_mem_nil
  | footnote h ih => exact .of_plain List.not_mem_nil

end

end MarkdownModule.Markdown

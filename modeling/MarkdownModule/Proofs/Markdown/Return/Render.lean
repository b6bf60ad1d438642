import MarkdownModule.Proofs.Markdown.Return.Blocks
import MarkdownModule.Proofs.Markdown.Return.Reading
import MarkdownModule.Proofs.Markdown.Return.Spelling

/-!
# The line endings of what is rendered

The text of a footnote is written at the end of a document, and only if the footnote is called.  The
line endings at its end may be dropped there.  No carriage return is among them, since each block ends
with a tag or holds none.

* `Settled`                   a text with no carriage return among the line endings at its end
* `Block.Sound.bodies`        the texts of the footnotes in a block
* `returns_writeDocument`     a document in HTML
* `render_lineEnds`           what is rendered
-/

namespace MarkdownModule.Markdown

/-! ## line endings at the end of a text -/

def isEnding (c : Char) : Bool := c = '\n' || c = '\r'

/-- behind each carriage return stands a character that ends no line -/
def Settled (s : Text) : Prop := ∀ a t, s = a ++ '\r' :: t → ∃ c ∈ t, isEnding c = false

section
variable {ts : List Text} {a s : Text}

theorem Settled.of_plain (h : Plain s) : Settled s := by
  rintro a t rfl
  exact absurd (List.mem_append_right a List.mem_cons_self) h

theorem settled_close (a : Text) {s : Text} {c : Char} (hs : s.getLast? = some c)
    (hc : isEnding c = false) : Settled (a ++ s) := by
  intro u t h
  have hlast : (u ++ '\r' :: t).getLast? = some c := by
    rw [← h, List.getLast?_append, hs]
    rfl
  rw [Text.getLast?_append_right u (List.cons_ne_nil _ _)] at hlast
  cases t with
  | nil =>
    cases hlast
    cases hc
  | cons d t => exact ⟨c, List.mem_of_getLast? hlast, hc⟩

theorem Settled.append (ha : Settled a) (hs : Settled s) : Settled (a ++ s) := by
  intro u t h
  rcases List.append_eq_append_iff.1 h with ⟨v, rfl, hv⟩ | ⟨v, hu, hv⟩
  · exact hs v t hv
  · cases v with
    | nil => exact hs [] t hv.symm
    | cons d v =>
      obtain ⟨rfl, rfl⟩ := List.cons.inj hv
      obtain ⟨c, hc, hends⟩ := ha u v hu
      exact ⟨c, List.mem_append_left s hc, hends⟩

theorem Settled.endLine (h : Settled s) : Settled (Footnote.endLine s) := by
  unfold Footnote.endLine
  split
  · exact h
  · exact h.append (.of_plain (by decide))

theorem ReturnsFrom.dropEndings (h : ReturnsFrom ts s) (hs : Settled s) :
    ReturnsFrom ts (Text.dropEndWhile isEnding s) := by
  obtain ⟨t, ht, hends⟩ := Text.exists_dropEndWhile_append isEnding s
  have hplain : Plain t := by
    intro hmem
    obtain ⟨u, v, rfl⟩ := List.append_of_mem hmem
    obtain ⟨c, hc, hopen⟩ := hs (Text.dropEndWhile isEnding s ++ u) v
      (by rw [List.append_assoc]; exact ht)
    rw [hends c (List.mem_append_right u (List.mem_cons_of_mem _ hc))] at hopen
    cases hopen
  exact ReturnsFrom.of_before (a := t) (by rw [← ht]; exact h) hplain

/-- the text of a footnote with links behind it -/
theorem ReturnsFrom.withBackLinks (h : ReturnsFrom ts s) (hs : Settled s) (ha : Plain a) :
    ReturnsFrom ts (Footnote.withBackLinks a s) := by
  have hend : Plain Footnote.paragraphEnd := by decide
  have hkept : ReturnsFrom ts (Text.dropEndWhile (fun c => c = '\n' || c = '\r') s) :=
    h.dropEndings hs
  unfold Footnote.withBackLinks
  dsimp only
  split
  · next hsuffix =>
    obtain ⟨u, hu⟩ := List.isSuffixOf_iff_suffix.1 hsuffix
    have htake : (u ++ Footnote.paragraphEnd).take
        ((u ++ Footnote.paragraphEnd).length - Footnote.paragraphEnd.length) = u :=
      List.take_left' (by rw [List.length_append, Nat.add_sub_cancel])
    rw [hu] at htake
    rw [← hu] at hkept
    exact htake.symm ▸ ((hkept.of_before hend).before (ha.cons (by decide))).before hend
  · exact h.endLine.before ha

theorem settled_putBlocks {ws : List Written} (h : ∀ w ∈ ws, Settled w.text) (first : Bool)
    (hs : Settled s) : Settled (putBlocks first s ws) := by
  induction ws generalizing first s with
  | nil => exact hs
  | cons w ws ih =>
    obtain ⟨hw, hws⟩ := List.forall_mem_cons.1 h
    cases w with
    | hidden => exact ih hws first hs
    | bare u =>
      rw [putBlocks]
      refine ih hws false (Settled.append ?_ hw)
      split
      · exact hs
      · exact hs.endLine
    | block u => exact ih hws false (hs.endLine.append hw)

end

/-! ## footnotes -/

section
variable {b : Prop} {o : MarkdownSettings}

/-- a block that is not in a list ends with a tag, or is raw HTML -/
theorem Block.Sound.settled {x : Resolved} (h : x.Sound b (SoundInlines b)) (o : MarkdownSettings)
    (n : Notes) : Settled (writeBlock o false n x).1.text := by
  cases h with
  | thematicBreak => exact .of_plain (show Plain "<hr />".toList by decide)
  | heading h => exact settled_close _ (s := ['>']) rfl rfl
  | paragraph h => exact settled_close _ (s := "</p>".toList) rfl rfl
  | code hl h => exact settled_close _ (s := "</code></pre>".toList) rfl rfl
  | formula h => exact settled_close _ (s := "</code></pre>".toList) rfl rfl
  | html h => exact .of_plain (plain_html o.rawHtml h)
  | quote h => exact settled_close _ (s := "</blockquote>".toList) rfl rfl
  | @list marker start loose items h =>
    have hclose : ('\n' :: (listTags marker start).2).getLast? = some '>' := by
      unfold listTags
      split <;> rfl
    exact settled_close _ hclose rfl
  | table hhead hrows => exact settled_close _ (s := "\n</table>".toList) rfl rfl
  | definition h => exact .of_plain List.not_mem_nil
  | footnote h => exact .of_plain List.not_mem_nil

def IsBody (note : Text × List Resolved) (body : Text × Text) : Prop :=
  note.1 = body.1 ∧ ReturnsFrom (Block.decodedTextsInRow note.2) body.2 ∧ Settled body.2

/-- what is left for the end of a document after footnotes -/
def Bodies (notes : List (Text × List Resolved)) (n n' : Notes) : Prop :=
  ∃ new, n'.bodies = n.bodies ++ new ∧ List.Forall₂ IsBody notes new

theorem Bodies.nil {n n' : Notes} (h : n'.bodies = n.bodies) : Bodies [] n n' :=
  ⟨[], by rw [h, List.append_nil], .nil⟩

theorem Bodies.append {notes notes' : List (Text × List Resolved)} {n n' n'' : Notes}
    (h : Bodies notes n n') (h' : Bodies notes' n' n'') : Bodies (notes ++ notes') n n'' := by
  obtain ⟨new, hnew, hbodies⟩ := h
  obtain ⟨new', hnew', hbodies'⟩ := h'
  exact ⟨new ++ new', by rw [hnew', hnew, List.append_assoc], List.rel_append hbodies hbodies'⟩

theorem bodies_writeBlocks {xs : List Resolved}
    (h : ∀ x ∈ xs, ∀ tight n, Bodies x.notes n (writeBlock o tight n x).2) (tight : Bool)
    (n : Notes) : Bodies (Block.notesIn xs) n (writeBlocks o tight n xs).2 := by
  induction xs generalizing n with
  | nil => exact .nil rfl
  | cons x xs ih =>
    obtain ⟨hx, hxs⟩ := List.forall_mem_cons.1 h
    exact (hx tight n).append (ih hxs _)

theorem bodies_writeItems {items : List (List Resolved)}
    (h : ∀ i ∈ items, ∀ x ∈ i, ∀ tight n, Bodies x.notes n (writeBlock o tight n x).2)
    (tight : Bool) (n : Notes) :
    Bodies (Block.notesInItems items) n (writeItems o tight n items).2 := by
  induction items generalizing n with
  | nil => exact .nil rfl
  | cons i items ih =>
    obtain ⟨hi, hitems⟩ := List.forall_mem_cons.1 h
    exact (bodies_writeBlocks hi tight n).append (ih hitems _)

theorem settled_writeBlocks {xs : List Resolved} (h : ∀ x ∈ xs, x.Sound b (SoundInlines b))
    (n : Notes) : ∀ w ∈ (writeBlocks o false n xs).1, Settled w.text := by
  induction xs generalizing n with
  | nil => exact List.forall_mem_nil _
  | cons x xs ih =>
    obtain ⟨hx, hxs⟩ := List.forall_mem_cons.1 h
    exact List.forall_mem_cons.2 ⟨hx.settled o n, ih hxs _⟩

/-- the texts of the footnotes in a block -/
theorem Block.Sound.bodies {x : Resolved} (h : x.Sound b (SoundInlines b)) (o : MarkdownSettings)
    (tight : Bool) (n : Notes) : Bodies x.notes n (writeBlock o tight n x).2 := by
  induction h generalizing tight n with
  | thematicBreak | heading | paragraph | code | formula | html | table | definition =>
    exact .nil rfl
  | quote h ih => exact bodies_writeBlocks ih false n
  | list h ih => exact bodies_writeItems ih _ n
  | @footnote label inner h ih =>
    have hrow := returns_writeBlocks (o := o) (fun x hx => (h x hx).write o) false n
    have hreturns := hrow.put true (.of_plain List.not_mem_nil)
    have hsettled := settled_putBlocks (settled_writeBlocks (o := o) h n) true
      (.of_plain List.not_mem_nil)
    exact (bodies_writeBlocks ih false n).append ⟨_, rfl, .cons ⟨rfl, hreturns, hsettled⟩ .nil⟩

/-! ## documents -/

theorem lookup_bodies {notes : List (Text × List Resolved)} {bodies : List (Text × Text)}
    (h : List.Forall₂ IsBody notes bodies) (label : Text) :
    ReturnsFrom (((notes.lookup label).map Block.decodedTextsInRow).getD [])
      ((bodies.lookup label).getD []) ∧ Settled ((bodies.lookup label).getD []) := by
  induction h with
  | nil => exact ⟨.of_plain List.not_mem_nil, .of_plain List.not_mem_nil⟩
  | @cons note body notes bodies hbody _ ih =>
    obtain ⟨note, inner⟩ := note
    obtain ⟨rfl, hreturns, hsettled⟩ := hbody
    rw [List.lookup_cons, List.lookup_cons]
    split
    · exact ⟨hreturns, hsettled⟩
    · exact ih

theorem returns_writeSection {notes : List (Text × List Resolved)} {bodies : List (Text × Text)}
    (h : List.Forall₂ IsBody notes bodies) (cs : Calls) :
    ReturnsFrom
      (cs.flatMap fun call => ((notes.lookup call.1).map Block.decodedTextsInRow).getD [])
      (Footnote.writeSection bodies cs) := by
  have hitem : ∀ call : Text × Nat,
      ReturnsFrom (((notes.lookup call.1).map Block.decodedTextsInRow).getD [])
        (Footnote.writeItem bodies call) := by
    intro call
    have hopen : Plain "\n<li id=\"user-content-fn-".toList := by decide
    obtain ⟨hreturns, hsettled⟩ := lookup_bodies h call.1
    have hlinks := hreturns.withBackLinks hsettled (Footnote.plain_backLinks call.1 call.2)
    have htag := (hopen.append (Footnote.plain_anchor call.1)).append
      (show Plain "\">\n".toList by decide)
    exact (hlinks.after htag).before (by decide)
  have hitems : ReturnsFrom
      (cs.flatMap fun call => ((notes.lookup call.1).map Block.decodedTextsInRow).getD [])
      (cs.flatMap (Footnote.writeItem bodies)) := by
    induction cs with
    | nil => exact .of_plain List.not_mem_nil
    | cons call cs ih => exact (hitem call).append ih
  exact (hitems.after (by decide)).before (by decide)

/-- the carriage returns of a document in HTML -/
theorem returns_writeDocument (o : MarkdownSettings) {xs : List Resolved}
    (h : ∀ x ∈ xs, x.Sound b (SoundInlines b)) :
    ReturnsFrom (decodedTextsOf o xs) (writeDocument o xs) := by
  have hrow := returns_writeBlocks (o := o) (fun x hx => (h x hx).write o) false {}
  have hbody := hrow.put true (.of_plain List.not_mem_nil)
  obtain ⟨bodies, hbodies, hnotes⟩ :=
    bodies_writeBlocks (o := o) (fun x hx => (h x hx).bodies o) false {}
  unfold writeDocument decodedTextsOf
  dsimp only
  split
  · next hempty =>
    rw [List.isEmpty_iff.1 hempty, List.flatMap_nil, List.append_nil]
    exact hbody
  · rw [hbodies]
    exact hbody.endLine.append (returns_writeSection hnotes _)

end

/-! ## references -/

section
variable {b : Prop}

theorem brings_decodedTextsIn {inImage : Bool} {is : List Inline}
    (h : ∀ i ∈ is, ∀ t ∈ i.decodedTexts inImage, Brings b t) :
    ∀ t ∈ decodedTextsIn inImage is, Brings b t := by
  induction is with
  | nil => exact List.forall_mem_nil _
  | cons i is ih =>
    obtain ⟨hi, his⟩ := List.forall_mem_cons.1 h
    rw [decodedTextsIn]
    exact List.forall_mem_append.2 ⟨hi, ih his⟩

/-- the texts of inline content that references were replaced in -/
theorem Inline.Sound.brings {i : Inline} (h : i.Sound b) (inImage : Bool) :
    ∀ t ∈ i.decodedTexts inImage, Brings b t := by
  have htitle : ∀ {title : Option Text} {inImage : Bool}, (∀ t ∈ title, Brings b t) →
      ∀ t ∈ (if inImage = true then [] else title.toList), Brings b t := by
    intro title inImage ht t hmem
    split at hmem
    · cases hmem
    · exact ht t (Option.mem_toList.1 hmem)
  induction h generalizing inImage with
  | decoded h => exact List.forall_mem_singleton.2 h
  | emphasis h ih | strong h ih | struck h ih =>
    exact brings_decodedTextsIn fun i hi => ih i hi inImage
  | link destination ht h ih =>
    rw [Inline.decodedTexts]
    exact List.forall_mem_append.2 ⟨htitle ht, brings_decodedTextsIn fun i hi => ih i hi inImage⟩
  | image destination ht h ih =>
    rw [Inline.decodedTexts]
    exact List.forall_mem_append.2 ⟨brings_decodedTextsIn fun i hi => ih i hi true, htitle ht⟩
  | text | softBreak | hardBreak | code | formula | html | autolink | bareLink | footnoteCall
    | checkBox => exact List.forall_mem_nil _

theorem SoundInlines.brings {is : List Inline} (h : SoundInlines b is) (inImage : Bool) :
    ∀ t ∈ decodedTextsIn inImage is, Brings b t :=
  brings_decodedTextsIn fun i hi => (h i hi).brings inImage

namespace Block

theorem brings_decodedTextsInRow {xs : List Resolved}
    (h : ∀ x ∈ xs, ∀ t ∈ x.decodedTexts, Brings b t) : ∀ t ∈ decodedTextsInRow xs, Brings b t := by
  induction xs with
  | nil => exact List.forall_mem_nil _
  | cons x xs ih =>
    obtain ⟨hx, hxs⟩ := List.forall_mem_cons.1 h
    rw [decodedTextsInRow]
    exact List.forall_mem_append.2 ⟨hx, ih hxs⟩

theorem brings_decodedTextsInItems {is : List (List Resolved)}
    (h : ∀ i ∈ is, ∀ x ∈ i, ∀ t ∈ x.decodedTexts, Brings b t) :
    ∀ t ∈ decodedTextsInItems is, Brings b t := by
  induction is with
  | nil => exact List.forall_mem_nil _
  | cons i is ih =>
    obtain ⟨hi, his⟩ := List.forall_mem_cons.1 h
    rw [decodedTextsInItems]
    exact List.forall_mem_append.2 ⟨brings_decodedTextsInRow hi, ih his⟩

theorem Sound.brings {x : Resolved} (h : x.Sound b (SoundInlines b)) :
    ∀ t ∈ x.decodedTexts, Brings b t := by
  have hcells : ∀ {cs : List (List Inline)} (n : Nat), (∀ c ∈ cs, SoundInlines b c) →
      ∀ t ∈ (cs.take n).flatMap (decodedTextsIn false), Brings b t := by
    intro cs n h t ht
    obtain ⟨c, hc, ht⟩ := List.mem_flatMap.1 ht
    exact (h c (List.mem_of_mem_take hc)).brings false t ht
  induction h with
  | heading h | paragraph h => exact h.brings false
  | code hl h => exact List.forall_mem_singleton.2 hl
  | quote h ih => exact brings_decodedTextsInRow ih
  | list h ih => exact brings_decodedTextsInItems ih
  | table hhead hrows =>
    rw [decodedTexts]
    refine List.forall_mem_append.2 ⟨hcells _ hhead, fun t ht => ?_⟩
    obtain ⟨r, hr, ht⟩ := List.mem_flatMap.1 ht
    exact hcells _ (hrows r hr) t ht
  | thematicBreak | formula | html | definition | footnote => exact List.forall_mem_nil _

theorem mem_notesIn {note : Text × List Resolved} {xs : List Resolved} :
    note ∈ notesIn xs ↔ ∃ x ∈ xs, note ∈ x.notes := by
  induction xs with
  | nil => exact ⟨nofun, nofun⟩
  | cons x xs ih => rw [notesIn, List.mem_append, ih, List.exists_mem_cons_iff]

theorem mem_notesInItems {note : Text × List Resolved} {is : List (List Resolved)} :
    note ∈ notesInItems is ↔ ∃ i ∈ is, note ∈ notesIn i := by
  induction is with
  | nil => exact ⟨nofun, nofun⟩
  | cons i is ih => rw [notesInItems, List.mem_append, ih, List.exists_mem_cons_iff]

theorem Sound.notes {x : Resolved} (h : x.Sound b (SoundInlines b)) :
    ∀ note ∈ x.notes, ∀ y ∈ note.2, y.Sound b (SoundInlines b) := by
  induction h with
  | quote h ih =>
    intro note hnote
    obtain ⟨x, hx, hnote⟩ := mem_notesIn.1 hnote
    exact ih x hx note hnote
  | list h ih =>
    intro note hnote
    obtain ⟨i, hi, hnote⟩ := mem_notesInItems.1 hnote
    obtain ⟨x, hx, hnote⟩ := mem_notesIn.1 hnote
    exact ih i hi x hx note hnote
  | footnote h ih =>
    intro note hnote
    rcases List.mem_append.1 hnote with hnote | hnote
    · obtain ⟨x, hx, hnote⟩ := mem_notesIn.1 hnote
      exact ih x hx note hnote
    · cases List.mem_singleton.1 hnote
      exact h
  | thematicBreak | heading | paragraph | code | formula | html | table | definition => exact nofun

end Block

theorem brings_decodedTextsOf (o : MarkdownSettings) {xs : List Resolved}
    (h : ∀ x ∈ xs, x.Sound b (SoundInlines b)) : ∀ t ∈ decodedTextsOf o xs, Brings b t := by
  refine List.forall_mem_append.2 ⟨Block.brings_decodedTextsInRow fun x hx => (h x hx).brings, ?_⟩
  intro t ht
  obtain ⟨call, -, ht⟩ := List.mem_flatMap.1 ht
  cases hfound : (Block.notesIn xs).lookup call.1 with
  | none =>
    rw [hfound] at ht
    cases ht
  | some inner =>
    obtain ⟨before, after, hnotes, -⟩ := List.lookup_eq_some_iff.1 hfound
    have hmem : (call.1, inner) ∈ Block.notesIn xs :=
      hnotes ▸ List.mem_append_right before List.mem_cons_self
    obtain ⟨x, hx, hnote⟩ := Block.mem_notesIn.1 hmem
    have hinner := (h x hx).notes _ hnote
    rw [hfound] at ht
    exact Block.brings_decodedTextsInRow (fun y hy => (hinner y hy).brings) t ht

end

/-! ## what is rendered -/

theorem sound_parse {b : Prop} (o : MarkdownSettings) {source : Text} (h : Clean b source) :
    ∀ x ∈ parse o source, x.Sound b (SoundInlines b) :=
  Scope.sound_resolve o (readDocument_sound o h)

theorem closeText_eq_nil_or (s : Text) : closeText s = [] ∨ (closeText s).getLast? = some '\n' := by
  unfold closeText
  split
  · next h =>
    refine (Bool.or_eq_true_iff.1 h).imp List.isEmpty_iff.1 fun hend => ?_
    exact beq_iff_eq.1 hend
  · exact .inr List.getLast?_concat

/-- **What is rendered is empty or ends with a line feed.  It holds a carriage return if and only if a
text does that it is written with and that references were replaced in, and then the body holds a
reference to the carriage return.** -/
theorem render_lineEnds (o : RendererOptions) (body : Text) :
    (render o body = [] ∨ (render o body).getLast? = some '\n') ∧
      ('\r' ∈ render o body ↔
        ∃ t ∈ decodedTextsOf o.settings (parse o.settings (prepare o body)), '\r' ∈ t) ∧
      ('\r' ∈ render o body → ∃ a w t, body = a ++ '&' :: w ++ t ∧ SpellsReturn w) := by
  have hsound := sound_parse o.settings (clean_prepare o body)
  have hreturns : ReturnsFrom (decodedTextsOf o.settings (parse o.settings (prepare o body)))
      (render o body) := by
    have hwritten := returns_writeDocument o.settings hsound
    unfold render closeText
    split
    · exact hwritten
    · exact hwritten.before (by decide)
  refine ⟨closeText_eq_nil_or _, hreturns, fun hmem => ?_⟩
  obtain ⟨t, ht, hmem⟩ := hreturns.1 hmem
  exact exists_spelled_of_refersToReturn (brings_decodedTextsOf o.settings hsound t ht hmem)

/-- a reference to the carriage return is written as that character -/
theorem render_return : '\r' ∈ render {} "a&#13;b".toList := by
  decide +kernel

end MarkdownModule.Markdown

import MarkdownModule.Proofs.Markdown.Marked.Line
import MarkdownModule.Proofs.Markdown.Paragraph
import MarkdownModule.Proofs.Markdown.Places
import Mathlib.Data.List.Forall2

/-!
# Closed paragraphs

Lines with backslashes come to the definitions that they come to without, and to the same text with
backslashes.

* `Closes`             lines of which this holds
* `Closes.of_marked`   lines whose marked line endings all stand in the text after the definitions
-/

namespace MarkdownModule.Markdown

open Line (Alike mark)

namespace Content

/-- a content without the places of its line endings -/
def plain (c : Content) : Content := { text := c.text }

/-- a content with a backslash before each line ending that becomes a break, without the places of its
line endings -/
def broken (breaks : Nat → Bool) (c : Content) : Content :=
  { text := breakEnds breaks c.lineEnds.reverse c.text }

theorem ofLines_cons_cons (l m : Line) (ls : List Line) :
    (ofLines (l :: m :: ls)).text = (ofLines (m :: ls)).text ++ '\n' :: l.text := by
  have hconcat : ∀ (ts : List Text) (t u : Text), List.intercalate ['\n'] (ts ++ [t] ++ [u]) =
      List.intercalate ['\n'] (ts ++ [t]) ++ '\n' :: u := by
    intro ts
    induction ts with
    | nil => exact fun t u => by simp [List.intercalate]
    | cons v ts ih =>
      intro t u
      obtain ⟨w, ws, hw⟩ := List.exists_cons_of_ne_nil (show ts ++ [t] ≠ [] by simp)
      have ih := ih t u
      rw [List.cons_append, List.cons_append, hw]
      rw [hw] at ih
      rw [List.cons_append, List.intercalate_cons_cons, ← List.cons_append, ih,
        List.intercalate_cons_cons]
      simp only [List.append_assoc]
  simp only [ofLines, List.reverse_cons, List.map_append, List.map_singleton]
  exact hconcat _ _ _

end Content

theorem Line.not_mem_text {l : Line} (h : '\n' ∉ l.rest) : '\n' ∉ l.text := by
  rw [Line.text, List.mem_append, List.mem_replicate, not_or]
  exact ⟨fun hspace => absurd hspace.2 (by decide), h⟩

section
variable {breaks : Nat → Bool}

theorem breakEnds_of_not_mem {ends : List Nat} {s : Text} (h : '\n' ∉ s) :
    breakEnds breaks ends s = s :=
  breakEnds_eq_self (by rw [Scope.endsOf_eq_nil ends h]; exact fun _ hmem => absurd hmem List.not_mem_nil)
    (by rw [List.count_eq_zero.2 h]; exact Nat.zero_le _)

theorem breakEnds_take {ends : List Nat} {n : Nat} {s : Text} (h : s.count '\n' ≤ n) :
    breakEnds breaks (ends.take n) s = breakEnds breaks ends s := by
  induction s with
  | nil => rfl
  | cons c r ih =>
    by_cases hc : c = '\n'
    · subst hc
      rw [List.count_cons_self] at h
      rw [breakEnds, breakEnds, ih (by omega), breaksAt, breaksAt, List.getElem?_take_of_lt (by omega)]
    · rw [List.count_cons_of_ne hc] at h
      rw [breakEnds_cons hc, breakEnds_cons hc, ih h]

theorem breakEnds_endsOf {ends : List Nat} {s : Text} (h : s.count '\n' ≤ ends.length) :
    breakEnds breaks (Scope.endsOf ends s).reverse s = breakEnds breaks ends s := by
  rw [Scope.endsOf_eq h, List.reverse_reverse, breakEnds_take (Nat.le_refl _)]

/-- the text of lines with their backslashes; that of the last one stands behind it -/
theorem text_ofLines {l l' : Line} {ls ls' : List Line} (hl : '\n' ∉ l.rest)
    (hls : ∀ m ∈ ls, '\n' ∉ m.rest) (h : Alike breaks l l')
    (hs : List.Forall₂ (Alike breaks) ls ls') : (Content.ofLines (l' :: ls')).text =
      breakEnds breaks (ls.map (·.stop)) (Content.ofLines (l :: ls)).text ++ mark breaks l.stop := by
  induction hs generalizing l l' with
  | nil =>
    have hone : ∀ m : Line, (Content.ofLines [m]).text = m.text := fun m => by
      simp [Content.ofLines, List.intercalate]
    rw [hone, hone, breakEnds_of_not_mem (Line.not_mem_text hl), h.text]
  | @cons m m' ls ls' hm hs ih =>
    obtain ⟨hm', hls⟩ := List.forall_mem_cons.1 hls
    have hcount : ('\n' :: l.text).count '\n' = 1 := by
      rw [List.count_cons_self, List.count_eq_zero.2 (Line.not_mem_text hl)]
    have hend : breakEnds breaks (m.stop :: ls.map (·.stop)) ('\n' :: l.text) =
        mark breaks m.stop ++ '\n' :: l.text := by
      rw [breakEnds, breakEnds_of_not_mem (Line.not_mem_text hl), breaksAt,
        List.count_eq_zero.2 (Line.not_mem_text hl), mark]
      cases hbreak : breaks m.stop with
      | true => simp [hbreak]
      | false => simp [hbreak]
    rw [Content.ofLines_cons_cons, Content.ofLines_cons_cons, ih hm' hls hm, List.map_cons,
      breakEnds_append, hcount, List.drop_one, List.tail_cons, hend, h.text]
    simp only [List.append_assoc, List.cons_append]

theorem lineEnds_ofLines (l : Line) (ls : List Line) :
    (Content.ofLines (l :: ls)).lineEnds = (ls.map (·.stop)).reverse := by
  rw [Content.ofLines, ← List.map_reverse]
  rfl

/-- what lines come to as a paragraph is with backslashes the same with backslashes -/
def Closes (breaks : Nat → Bool) (ls : List Line) : Prop :=
  ∀ ls', List.Forall₂ (Alike breaks) ls ls' →
    (Content.ofLines ls').cutDefinitions.1 = (Content.ofLines ls).cutDefinitions.1 ∧
      (Content.ofLines ls').cutDefinitions.2.plain =
        (Content.ofLines ls).cutDefinitions.2.broken breaks

theorem count_ofLines {ls : List Line} (h : ∀ l ∈ ls, '\n' ∉ l.rest) :
    (Content.ofLines ls).text.count '\n' = (ls.drop 1).length := by
  have htexts : ∀ t ∈ ls.reverse.map (·.text), '\n' ∉ t := by
    intro t ht
    obtain ⟨l, hl, rfl⟩ := List.mem_map.1 ht
    exact Line.not_mem_text (h l (List.mem_reverse.1 hl))
  have hcount := count_intercalate htexts
  rw [List.length_map, List.length_reverse] at hcount
  rw [List.length_drop]
  exact hcount

/-- **Lines are closed alike** if all line endings that become breaks stand in the text after the
definitions, and no definition begins that text with its backslashes. -/
theorem Closes.of_marked {ls : List Line} (hls : ∀ l ∈ ls, '\n' ∉ l.rest)
    (hnodup : (ls.map (·.stop)).Nodup)
    (hin : ∀ l ∈ ls, breaks l.stop = true →
      l.stop ∈ (Content.ofLines ls).cutDefinitions.2.lineEnds)
    (hno : Definition.read? ((Content.ofLines ls).cutDefinitions.2.broken breaks).text = none) :
    Closes breaks ls := by
  intro ls' hs
  cases hs with
  | nil => exact ⟨rfl, rfl⟩
  | @cons l l' ls ls' h hs =>
    obtain ⟨hl, hls'⟩ := List.forall_mem_cons.1 hls
    have hcount := count_ofLines hls
    rw [List.drop_one, List.tail_cons] at hcount
    have htext := text_ofLines hl hls' h hs
    have hcontent : ∀ ls : List Line, (Content.ofLines ls).cutDefinitions =
        ((Definition.readAll (Content.ofLines ls).text).1,
          { text := (Definition.readAll (Content.ofLines ls).text).2
            lineEnds := (Content.ofLines ls).lineEnds.drop ((Content.ofLines ls).lineEnds.length -
              (Definition.readAll (Content.ofLines ls).text).2.count '\n') }) := fun _ => rfl
    have hends := lineEnds_ofLines l ls
    rw [hcontent, hends] at hin hno
    rw [hcontent, hcontent, hends]
    generalize (Content.ofLines (l :: ls)).text = s at hcount htext hin hno ⊢
    generalize (Content.ofLines (l' :: ls')).text = s' at htext ⊢
    generalize (Content.ofLines (l' :: ls')).lineEnds = lineEnds
    obtain ⟨w, hw⟩ : (Definition.readAll s).2 <:+ s := Definition.readSome_suffix _ _
    have hall := @Definition.readAll_breakEnds breaks (ls.map (·.stop)) s
    generalize (Definition.readAll s).2 = r at hin hno hw hall ⊢
    have hle : r.count '\n' ≤ (ls.map (·.stop)).length := by
      rw [List.length_map, ← hcount, ← hw, List.count_append]
      exact Nat.le_add_left _ _
    have hrest : ((ls.map (·.stop)).reverse.drop ((ls.map (·.stop)).reverse.length - r.count '\n')) =
        Scope.endsOf (ls.map (·.stop)) r := by
      rw [Scope.endsOf_eq hle, List.length_reverse, List.reverse_take]
    have hmarked : ∀ place ∈ (l :: ls).map (·.stop), breaks place = true →
        place ∈ Scope.endsOf (ls.map (·.stop)) r := by
      intro place hplace hbreak
      obtain ⟨m, hm, rfl⟩ := List.mem_map.1 hplace
      exact hrest ▸ hin m hm hbreak
    have hendsOf : Scope.endsOf (ls.map (·.stop)) s = (ls.map (·.stop)).reverse :=
      Scope.endsOf_eq_reverse (by rw [hcount, List.length_map])
    rw [← hw, Scope.endsOf_append] at hendsOf
    have hstops : (ls.map (·.stop)).Nodup := (List.nodup_cons.1 hnodup).2
    have hlast : breaks l.stop = false := eq_false_of_ne_true fun hbreak => by
      have hmem := hmarked l.stop List.mem_cons_self hbreak
      have hmem := List.mem_append_right (Scope.endsOf ((ls.map (·.stop)).drop (r.count '\n')) w) hmem
      rw [hendsOf, List.mem_reverse] at hmem
      exact (List.nodup_cons.1 hnodup).1 hmem
    have hbroken := @breakEnds_endsOf breaks _ _ hle
    rw [Content.broken] at hno ⊢
    dsimp only at hno ⊢
    rw [hrest, hbroken] at hno
    rw [hrest, hbroken, htext, mark, hlast, if_neg Bool.false_ne_true, List.append_nil,
      hall (fun v hv => ?_) hno]
    · exact ⟨rfl, rfl⟩
    · rw [List.append_cancel_right (hv.symm.trans hw.symm)]
      refine Hard.of_places ?_ ?_ fun place hplace hbreak => ?_
      · rw [Scope.endsOf_append, hendsOf]
        exact (List.reverse_perm _).nodup_iff.2 hstops
      · rw [hw, hcount, List.length_map]
      · rw [Scope.endsOf_append, hendsOf, List.mem_reverse] at hplace
        exact hmarked place (List.mem_cons_of_mem _ hplace) hbreak

theorem breakEnds_unmarked {ends : List Nat} (h : ∀ place ∈ ends, breaks place = false) (s : Text) :
    breakEnds breaks ends s = s := by
  have hno : ∀ r, breaksAt breaks ends r = false := by
    intro r
    unfold breaksAt
    cases hend : ends[r.count '\n']? with
    | none => rfl
    | some place => exact h place (List.mem_of_getElem? hend)
  induction s with
  | nil => rfl
  | cons c r ih =>
    rw [breakEnds, hno, Bool.and_false, ih]
    rfl

theorem broken_of_unmarked {c : Content} (h : ∀ place ∈ c.lineEnds, breaks place = false) :
    c.broken breaks = c.plain := by
  rw [Content.broken, Content.plain, breakEnds_unmarked fun place hplace =>
    h place (List.mem_reverse.1 hplace)]

/-- lines of which none gets a backslash -/
theorem Closes.of_unmarked {ls : List Line} (hls : ∀ l ∈ ls, '\n' ∉ l.rest)
    (hnodup : (ls.map (·.stop)).Nodup) (h : ∀ l ∈ ls, breaks l.stop = false) :
    Closes breaks ls := by
  refine .of_marked hls hnodup (fun l hl hbreak => absurd hbreak (by rw [h l hl]; decide)) ?_
  rw [broken_of_unmarked fun place hplace => ?_]
  · exact Definition.readAll_done _
  · obtain ⟨l, hl, rfl⟩ := List.mem_map.1 ((lineEnds_cutDefinitions ls).subset hplace)
    exact h l (List.mem_of_mem_drop hl)

theorem Closes.nil : Closes breaks [] :=
  .of_unmarked (fun _ h => absurd h List.not_mem_nil) List.nodup_nil
    fun _ h => absurd h List.not_mem_nil

end

end MarkdownModule.Markdown

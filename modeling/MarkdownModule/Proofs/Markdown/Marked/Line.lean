import MarkdownModule.Proofs.Markdown.Definitions
import MarkdownModule.Proofs.Markdown.Texts
import Mathlib.Data.List.TakeWhile

/-!
# Lines with a backslash at their end

A line whose line ending becomes a break gets a backslash at its end, behind a character that lets
it.  It stands in the same columns as the line without.

* `Line.Alike`          a line and the line with its backslash
* `Line.rest_skipAll`   what is left of a line without the blanks at its start
-/

namespace MarkdownModule.Markdown

/-! ## lines -/

/-- whether a line with such a last character may get a backslash: the line then is no row of a table,
underlines nothing and has no blanks at its end -/
def endsOpenly (last : Option Char) : Bool :=
  takesBackslash last && last.all fun c => c ≠ '=' && c ≠ '-'

namespace Line

/-- the backslash before a line ending that becomes a break -/
def mark (breaks : Nat → Bool) (place : Nat) : Text := if breaks place then ['\\'] else []

/-- `l'` is the line `l` with its backslash; its line ending may stand at another place -/
structure Alike (breaks : Nat → Bool) (l l' : Line) : Prop where
  spare : l'.spare = l.spare
  column : l'.column = l.column
  rest : l'.rest = l.rest ++ mark breaks l.stop
  clean : breaks l.stop = true → endsOpenly l.rest.getLast? = true

section
variable {breaks : Nat → Bool} {place : Nat}

theorem mark_cases (breaks : Nat → Bool) (place : Nat) :
    mark breaks place = [] ∧ breaks place = false ∨
      mark breaks place = ['\\'] ∧ breaks place = true := by
  unfold mark
  cases breaks place with
  | true => exact .inr ⟨rfl, rfl⟩
  | false => exact .inl ⟨rfl, rfl⟩

theorem gapWidth_mark (column : Nat) (s : Text) :
    gapWidth column (s ++ mark breaks place) = gapWidth column s := by
  induction s generalizing column with
  | nil => rcases mark_cases breaks place with ⟨h, -⟩ | ⟨h, -⟩ <;> rw [h] <;> rfl
  | cons c s ih => simp only [List.cons_append, gapWidth, ih]

theorem head?_mark {c : Char} (hc : c ≠ '\\') (s : Text) :
    (s ++ mark breaks place).head? = some c ↔ s.head? = some c := by
  cases s with
  | nil =>
    rcases mark_cases breaks place with ⟨h, -⟩ | ⟨h, -⟩
    · rw [h]
      exact Iff.rfl
    · rw [h]
      exact iff_of_false (fun e => hc (Option.some.inj e).symm) (fun e => by cases e)
  | cons d s => exact Iff.rfl

variable (breaks place) in
theorem prefix_mark {w : Text} (hw : '\\' ∉ w) (s : Text) :
    w <+: s ++ mark breaks place ↔ w <+: s := by
  refine ⟨fun h => ?_, fun h => h.trans (List.prefix_append s _)⟩
  rcases List.prefix_or_prefix_of_prefix h (List.prefix_append s _) with h' | ⟨v, rfl⟩
  · exact h'
  · rw [List.prefix_append_right_inj] at h
    cases v with
    | nil => exact ⟨[], by rw [List.append_nil, List.append_nil]⟩
    | cons c v =>
      refine absurd (List.mem_append_right s ?_) hw
      rcases mark_cases breaks place with ⟨hm, -⟩ | ⟨hm, -⟩
      · rw [hm] at h
        cases List.prefix_nil.1 h
      · rw [hm, List.cons_prefix_cons] at h
        rw [h.1]
        exact List.mem_cons_self

variable (breaks place) in
theorem span_mark {p : Char → Bool} (hp : p '\\' = false) (s : Text) :
    (s ++ mark breaks place).takeWhile p = s.takeWhile p ∧
      (s ++ mark breaks place).dropWhile p = s.dropWhile p ++ mark breaks place := by
  induction s with
  | nil =>
    rcases mark_cases breaks place with ⟨h, -⟩ | ⟨h, -⟩
    · rw [h]
      exact ⟨rfl, rfl⟩
    · rw [h, List.nil_append, List.takeWhile_cons_of_neg (by simp [hp]),
        List.dropWhile_cons_of_neg (by simp [hp])]
      exact ⟨rfl, rfl⟩
  | cons c s ih =>
    by_cases hc : p c = true
    · rw [List.cons_append, List.takeWhile_cons_of_pos hc, List.takeWhile_cons_of_pos hc,
        List.dropWhile_cons_of_pos hc, List.dropWhile_cons_of_pos hc, ih.1, ih.2]
      exact ⟨rfl, rfl⟩
    · rw [List.cons_append, List.takeWhile_cons_of_neg hc, List.takeWhile_cons_of_neg hc,
        List.dropWhile_cons_of_neg hc, List.dropWhile_cons_of_neg hc]
      exact ⟨rfl, rfl⟩

end

namespace Alike

variable {breaks : Nat → Bool} {l l' : Line}

theorem indent (h : Alike breaks l l') : l'.indent = l.indent := by
  rw [Line.indent, Line.indent, h.spare, h.column, h.rest, gapWidth_mark]

theorem inner (h : Alike breaks l l') : l'.inner = l.inner ++ mark breaks l.stop := by
  rw [Line.inner, h.rest, (span_mark _ _ (by decide) _).2]
  rfl

theorem text (h : Alike breaks l l') : l'.text = l.text ++ mark breaks l.stop := by
  rw [Line.text, Line.text, h.spare, h.rest, List.append_assoc]

/-- a line that is not marked is read as the same line -/
theorem inner_eq (h : Alike breaks l l') (hl : breaks l.stop = false) : l'.inner = l.inner := by
  rw [h.inner, mark, hl]
  exact List.append_nil _

theorem text_eq (h : Alike breaks l l') (hl : breaks l.stop = false) : l'.text = l.text := by
  rw [h.text, mark, hl]
  exact List.append_nil _

theorem not_blank (h : Alike breaks l l') (hl : breaks l.stop = true) : l'.isBlank = false := by
  rw [Line.isBlank, h.inner, mark, hl, if_pos rfl]
  simp

theorem isBlank (h : Alike breaks l l') (hl : breaks l.stop = true → l.isBlank = false) :
    l'.isBlank = l.isBlank := by
  by_cases hb : breaks l.stop = true
  · rw [h.not_blank hb, hl hb]
  · rw [Line.isBlank, Line.isBlank, h.inner_eq (eq_false_of_ne_true hb)]

end Alike

theorem TailOf.endsOpenly {t l : Line} (ht : t.TailOf l)
    (h : endsOpenly l.rest.getLast? = true) : endsOpenly t.rest.getLast? = true := by
  obtain ⟨⟨w, hw⟩, -⟩ := ht
  cases hr : t.rest.getLast? with
  | none => rfl
  | some c =>
    rw [← hw, List.getLast?_append, hr] at h
    exact h

namespace Alike

variable {breaks : Nat → Bool} {l l' : Line}

theorem skipColumn (h : Alike breaks l l') : Alike breaks l.skipColumn l'.skipColumn := by
  have hclean : breaks l.stop = true → endsOpenly l.skipColumn.rest.getLast? = true :=
    fun hb => l.skipColumn_tail.endsOpenly (h.clean hb)
  unfold Line.skipColumn at hclean ⊢
  rw [h.spare]
  split
  · exact ⟨rfl, h.column, h.rest, h.clean⟩
  · next hspare =>
    rw [if_neg hspare] at hclean
    have hrest := h.rest
    cases hr : l.rest with
    | nil =>
      rw [hr, List.nil_append] at hrest
      rcases mark_cases breaks l.stop with ⟨hm, -⟩ | ⟨hm, -⟩
      · rw [hrest, hm]
        exact h
      · rw [hrest, hm]
        exact h
    | cons c r =>
      rw [hr] at hrest hclean
      rw [hrest, List.cons_append]
      dsimp only at hclean ⊢
      split
      · next hc =>
        rw [if_pos hc] at hclean
        exact ⟨rfl, congrArg (· + 1) h.column, rfl, hclean⟩
      · next hc =>
        rw [if_neg hc] at hclean
        split
        · next ht =>
          rw [if_pos ht] at hclean
          exact ⟨by rw [h.column], by rw [h.column], rfl, hclean⟩
        · exact h

theorem skip (h : Alike breaks l l') (n : Nat) : Alike breaks (l.skip n) (l'.skip n) := by
  induction n generalizing l l' with
  | zero => exact h
  | succ n ih => exact ih h.skipColumn

theorem skipAll (h : Alike breaks l l') : Alike breaks l.skipAll l'.skipAll := by
  unfold Line.skipAll
  rw [h.indent]
  exact h.skip _

theorem drop (h : Alike breaks l l') {n : Nat} (hn : n ≤ l.rest.length) :
    Alike breaks (l.drop n) (l'.drop n) := by
  refine ⟨h.spare, ?_, ?_, fun hb => (l.drop_tail n).endsOpenly (h.clean hb)⟩
  · rw [Line.drop, Line.drop]
    dsimp only
    rw [h.column, h.rest, List.take_append_of_le_length hn]
  · rw [Line.drop, Line.drop]
    dsimp only
    rw [h.rest, List.drop_append_of_le_length hn]

end Alike

end Line

/-! ## blanks before a line -/

namespace Line

theorem indent_skipColumn {l : Line} (h : 0 < l.indent) :
    l.skipColumn.indent + 1 = l.indent ∧ l.skipColumn.inner = l.inner := by
  unfold skipColumn
  unfold indent at h ⊢
  split
  · next hspare => exact ⟨by dsimp only; omega, rfl⟩
  · next hspare =>
    have hspare : l.spare = 0 := by omega
    split
    · next hr =>
      rw [hr, hspare] at h
      exact absurd h (Nat.lt_irrefl 0)
    · next c r hr =>
      rw [hr] at h ⊢
      unfold inner
      rw [hr]
      split
      · next hc =>
        subst hc
        rw [gapWidth, if_pos rfl]
        exact ⟨by dsimp only; omega, rfl⟩
      · next hc =>
        split
        · next ht =>
          subst ht
          have hwidth : 0 < tabWidth l.column := by unfold tabWidth; omega
          rw [gapWidth, if_neg (by decide), if_pos rfl]
          exact ⟨by dsimp only; omega, rfl⟩
        · next ht =>
          rw [gapWidth, if_neg hc, if_neg ht, hspare] at h
          exact absurd h (by decide)

theorem rest_of_indent {l : Line} (h : l.indent = 0) : l.spare = 0 ∧ l.rest = l.inner := by
  unfold indent at h
  refine ⟨by omega, ?_⟩
  unfold inner
  cases hr : l.rest with
  | nil => rfl
  | cons c r =>
    rw [hr, gapWidth] at h
    have hspace : c ≠ ' ' := fun e => by rw [if_pos e] at h; omega
    have htab : c ≠ '\t' := fun e => by
      have hwidth : 0 < tabWidth l.column := by unfold tabWidth; omega
      rw [if_neg hspace, if_pos e] at h
      omega
    rw [List.dropWhile_cons_of_neg (by simp [isGap, hspace, htab])]

theorem rest_skipAll (l : Line) : l.skipAll.spare = 0 ∧ l.skipAll.rest = l.inner := by
  have hskip : ∀ n (l : Line), l.indent = n → (l.skip n).indent = 0 ∧ (l.skip n).inner = l.inner := by
    intro n
    induction n with
    | zero => exact fun l h => ⟨h, rfl⟩
    | succ n ih =>
      intro l h
      obtain ⟨hindent, hinner⟩ := indent_skipColumn (l := l) (by omega)
      obtain ⟨hzero, hsame⟩ := ih l.skipColumn (by omega)
      exact ⟨hzero, hsame.trans hinner⟩
  obtain ⟨hzero, hinner⟩ := hskip l.indent l rfl
  obtain ⟨hspare, hrest⟩ := rest_of_indent hzero
  exact ⟨hspare, hrest.trans hinner⟩

theorem isBlank_iff {l : Line} : l.isBlank = true ↔ ∀ c ∈ l.rest, isGap c = true := by
  rw [isBlank, inner, List.isEmpty_iff, List.dropWhile_eq_nil_iff]

theorem rest_of_isBlank {l : Line} (h : endsOpenly l.rest.getLast? = true)
    (hl : l.isBlank = true) : l.rest = [] := by
  cases hr : l.rest.getLast? with
  | none => exact List.getLast?_eq_none_iff.1 hr
  | some c =>
    have hgap := isBlank_iff.1 hl c (List.mem_of_getLast? hr)
    rw [hr] at h
    simp [Markdown.endsOpenly, takesBackslash, hgap] at h

theorem TailOf.isBlank {t l : Line} (h : t.TailOf l) (hl : l.isBlank = true) : t.isBlank = true :=
  isBlank_iff.2 fun c hc => isBlank_iff.1 hl c (h.1.subset hc)

end Line

end MarkdownModule.Markdown

import MarkdownModule.Json.Syntax
import MarkdownModule.Json.Writer
import MarkdownModule.Script.Literal

/-!
# Strings are read as they are written

* `Json.ReadsBack`              a way to write characters that a reader undoes
* `Json.readUnits_quote`        a string is read up to its closing quote
* `Json.readsBack_escapeChar`   plain JSON
* `Script.readsBack_escapeChar` scripts
-/

namespace MarkdownModule.Json

/-- the text is read as one unit, which stands for the character -/
def SpellsUnit (s : Text) (c : Char) : Prop :=
  ∃ u, (∀ r, readUnits (s ++ r) = (readUnits r).map fun t => (u :: t.1, t.2)) ∧
    ∀ us, unitsText? (u :: us) = (unitsText? us).map (c :: ·)

/-- what is written for a character is read as that character -/
def ReadsBack (escape : Char → Text) : Prop := ∀ c, SpellsUnit (escape c) c

/-- **A string is read up to its closing quote.** -/
theorem readUnits_quote {escape : Char → Text} (he : ReadsBack escape) (s : Text) :
    ∃ us, unitsText? us = some s ∧
      ∀ r, readUnits (s.flatMap escape ++ '"' :: r) = some (us, r) := by
  induction s with
  | nil => exact ⟨[], rfl, fun r => by rw [List.flatMap_nil, List.nil_append, readUnits]⟩
  | cons c s ih =>
    obtain ⟨us, hus, hread⟩ := ih
    obtain ⟨u, hu, htext⟩ := he c
    refine ⟨u :: us, by rw [htext, hus]; rfl, fun r => ?_⟩
    rw [List.flatMap_cons, List.append_assoc, hu, hread]
    rfl

/-! ## escapes -/

theorem hexDigit?_digitChar {d : Nat} (h : d < 16) : hexDigit? (Nat.digitChar d) = some d := by
  have hall : ∀ d < 16, hexDigit? (Nat.digitChar d) = some d := by decide
  exact hall d h

theorem isAlphanum_of_hexDigit? {c : Char} (h : (hexDigit? c).isSome = true) :
    c.isAlphanum = true := by
  unfold hexDigit? at h
  split at h
  · next hd => exact Bool.or_eq_true_iff.2 (.inr hd)
  refine Bool.or_eq_true_iff.2 (.inl (Bool.or_eq_true_iff.2 ?_))
  split at h
  · next hl =>
    obtain ⟨h1, h2⟩ := Bool.and_eq_true_iff.1 hl
    exact .inr (Bool.and_eq_true_iff.2 ⟨h1, decide_eq_true
      (Nat.le_trans (of_decide_eq_true h2) (by decide))⟩)
  split at h
  · next hu =>
    obtain ⟨h1, h2⟩ := Bool.and_eq_true_iff.1 hu
    exact .inl (decide_eq_true ⟨of_decide_eq_true h1,
      Nat.le_trans (of_decide_eq_true h2) (by decide)⟩)
  · cases h

/-- an escape by code is read as the code -/
theorem readUnits_escapeCode {c : Char} (h : c.toNat < 65536) (r : Text) :
    readUnits (escapeCode c ++ r) = (readUnits r).map fun t => (.code c.toNat :: t.1, t.2) := by
  have h1 := hexDigit?_digitChar (show c.toNat / 4096 % 16 < 16 by omega)
  have h2 := hexDigit?_digitChar (show c.toNat / 256 % 16 < 16 by omega)
  have h3 := hexDigit?_digitChar (show c.toNat / 16 % 16 < 16 by omega)
  have h4 := hexDigit?_digitChar (show c.toNat % 16 < 16 by omega)
  have e : c.toNat / 4096 % 16 * 4096 + c.toNat / 256 % 16 * 256 + c.toNat / 16 % 16 * 16 +
      c.toNat % 16 = c.toNat := by omega
  unfold escapeCode hex4
  simp only [List.cons_append, List.nil_append]
  rw [readUnits, h1, h2, h3, h4]
  simp only [Option.bind_eq_bind, Option.bind_some, e]
  cases readUnits r with
  | none => rfl
  | some t => rfl

/-- a code below the surrogates stands for its character -/
theorem unitsText?_code {c : Char} (h : c.toNat < 0xd800) (us : List StringUnit) :
    unitsText? (.code c.toNat :: us) = (unitsText? us).map (c :: ·) := by
  rw [unitsText?.eq_def]
  dsimp only
  rw [if_neg (by simp; omega), if_neg (by simp; omega), Char.ofNat_toNat]

/-- an escape by a letter is read as its character -/
theorem readUnits_letter {c e : Char} (h : escapedChar? c = some e) (r : Text) :
    readUnits ('\\' :: c :: r) = (readUnits r).map fun t => (.char e :: t.1, t.2) := by
  have hu : c ≠ 'u' := by
    rintro rfl
    have hnone : escapedChar? 'u' = none := by decide
    rw [hnone] at h
    cases h
  rw [readUnits]
  · rw [h]
    simp only [Option.bind_eq_bind, Option.bind_some]
    cases readUnits r with
    | none => rfl
    | some t => rfl
  · intro a b c' d r' e' _
    exact hu e'

/-- any other character is read as itself -/
theorem readUnits_plain {c : Char} (h1 : c ≠ '"') (h2 : c ≠ '\\') (h3 : ¬ c < ' ') (r : Text) :
    readUnits (c :: r) = (readUnits r).map fun t => (.char c :: t.1, t.2) := by
  rw [readUnits]
  · rw [if_neg (by simp [h2, h3])]
    simp only [Option.bind_eq_bind]
    cases readUnits r with
    | none => rfl
    | some t => rfl
  · exact h1
  · intro a b c' d r' e _
    exact h2 e
  · intro c' r' e _
    exact h2 e

theorem toNat_lt_of_lt {c d : Char} (h : c < d) : c.toNat < d.toNat := h

theorem spellsUnit_letter {c e : Char} (h : escapedChar? c = some e) : SpellsUnit ['\\', c] e :=
  ⟨.char e, fun r => readUnits_letter h r, fun us => by rw [unitsText?]⟩

theorem spellsUnit_code {c : Char} (h : c.toNat < 0xd800) : SpellsUnit (escapeCode c) c :=
  ⟨.code c.toNat, fun r => readUnits_escapeCode (by omega) r, fun us => unitsText?_code h us⟩

/-- the letters of the escapes that plain JSON writes, each with its character -/
def letterEscapes : List (Char × Char) :=
  [('"', '"'), ('\\', '\\'), ('b', '\x08'), ('t', '\t'), ('n', '\n'), ('f', '\x0c'), ('r', '\r')]

/-- a character is written by a letter, by its code, or as it is -/
theorem escapeChar_cases (c : Char) :
    (∃ l, (l, c) ∈ letterEscapes ∧ escapeChar c = ['\\', l]) ∨
      (c < ' ' ∧ escapeChar c = escapeCode c) ∨
      (c ≠ '"' ∧ c ≠ '\\' ∧ ¬ c < ' ' ∧ escapeChar c = [c]) := by
  by_cases h : ∃ l, (l, c) ∈ letterEscapes
  · obtain ⟨l, hl⟩ := h
    have hall : ∀ p ∈ letterEscapes, escapeChar p.2 = ['\\', p.1] := by decide
    exact .inl ⟨l, hl, hall (l, c) hl⟩
  · have hne : ∀ p ∈ letterEscapes, c ≠ p.2 := fun p hp e => h ⟨p.1, e ▸ hp⟩
    have h1 : c ≠ '"' := hne ('"', '"') (by decide)
    have h2 : c ≠ '\\' := hne ('\\', '\\') (by decide)
    have h3 : c ≠ '\x08' := hne ('b', '\x08') (by decide)
    have h4 : c ≠ '\t' := hne ('t', '\t') (by decide)
    have h5 : c ≠ '\n' := hne ('n', '\n') (by decide)
    have h6 : c ≠ '\x0c' := hne ('f', '\x0c') (by decide)
    have h7 : c ≠ '\r' := hne ('r', '\r') (by decide)
    unfold escapeChar
    rw [if_neg h1, if_neg h2, if_neg h3, if_neg h4, if_neg h5, if_neg h6, if_neg h7]
    by_cases hc : c < ' '
    · exact .inr (.inl ⟨hc, if_pos hc⟩)
    · exact .inr (.inr ⟨h1, h2, hc, if_neg hc⟩)

theorem readsBack_escapeChar : ReadsBack escapeChar := by
  intro c
  rcases escapeChar_cases c with ⟨l, hl, e⟩ | ⟨h, e⟩ | ⟨h1, h2, h3, e⟩
  · have hall : ∀ p ∈ letterEscapes, escapedChar? p.1 = some p.2 := by decide
    rw [e]
    exact spellsUnit_letter (hall (l, c) hl)
  · have hc := toNat_lt_of_lt h
    have hs : (' ' : Char).toNat = 32 := rfl
    rw [e]
    exact spellsUnit_code (by omega)
  · rw [e]
    exact ⟨.char c, fun r => readUnits_plain h1 h2 h3 r, fun us => by rw [unitsText?]⟩

/-- an escape by code is written with lower-case hexadecimal digits -/
theorem exists_of_mem_hex4 {n : Nat} {c : Char} (h : c ∈ hex4 n) :
    ∃ d < 16, c = Nat.digitChar d := by
  simp only [hex4, List.mem_cons, List.not_mem_nil, or_false] at h
  rcases h with rfl | rfl | rfl | rfl
  · exact ⟨_, Nat.mod_lt _ (by decide), rfl⟩
  · exact ⟨_, Nat.mod_lt _ (by decide), rfl⟩
  · exact ⟨_, Nat.mod_lt _ (by decide), rfl⟩
  · exact ⟨_, Nat.mod_lt _ (by decide), rfl⟩

end MarkdownModule.Json

namespace MarkdownModule.Script

theorem readsBack_escapeChar : Json.ReadsBack escapeChar := by
  intro c
  unfold escapeChar
  split
  · rename_i h
    rw [Bool.or_eq_true, decide_eq_true_iff, decide_eq_true_iff] at h
    rcases h with rfl | rfl
    · exact Json.spellsUnit_code (by decide)
    · exact Json.spellsUnit_code (by decide)
  · exact Json.readsBack_escapeChar c

end MarkdownModule.Script

import MarkdownModule.Proofs.Json.Grammar

/-!
# Variations of a value

A value may be written with its strings escaped in any way, and every object in it with its fields
in any order, without fields that are null, and with fields that the value does not have.

* `Json.Varies`              a form varies a value
* `Json.writes_of_wellFormed` the text of a value is written for a form that varies it
-/

namespace MarkdownModule.Json

mutual

inductive Varies : Value → Form → Prop
  | null : Varies .null .null
  | bool (b : Bool) : Varies (.bool b) (.bool b)
  | number {n : Number} {lexeme : Text} (h : (Lexeme.ofText lexeme).nearest? = some n) :
      Varies (.number n) (.number lexeme)
  | string {s : Text} {us : List StringUnit} (h : unitsText? us = some s) :
      Varies (.string s) (.string us)
  | array {vs : List Value} {fs : List Form} (h : VariesItems vs fs) :
      Varies (.array vs) (.array fs)
  /-- known fields and unknown ones, in any order -/
  | object {fields : List (Text × Value)} {members : List (List StringUnit × Form)}
      (known unknown : List (List StringUnit × Form)) (hknown : VariesFields fields known)
      (hunknown : ∀ m ∈ unknown, ∃ key, unitsText? m.1 = some key ∧ key ∉ fields.map Prod.fst)
      (order : members.Perm (known ++ unknown)) : Varies (.object fields) (.object members)

inductive VariesItems : List Value → List Form → Prop
  | nil : VariesItems [] []
  | cons {v : Value} {f : Form} {vs : List Value} {fs : List Form} (h : Varies v f)
      (hs : VariesItems vs fs) : VariesItems (v :: vs) (f :: fs)

/-- members vary the fields of an object in their order; a field that is null may be left out -/
inductive VariesFields : List (Text × Value) → List (List StringUnit × Form) → Prop
  | nil : VariesFields [] []
  | kept {key : Text} {us : List StringUnit} {v : Value} {f : Form} {fields : List (Text × Value)}
      {known : List (List StringUnit × Form)} (hkey : unitsText? us = some key) (h : Varies v f)
      (hs : VariesFields fields known) : VariesFields ((key, v) :: fields) ((us, f) :: known)
  | leftOut {key : Text} {fields : List (Text × Value)} {known : List (List StringUnit × Form)}
      (hs : VariesFields fields known) : VariesFields ((key, .null) :: fields) known

end

/-! ## the text of a value -/

theorem Writes.cast {p : Part} {s t : Text} (h : Writes p s) (e : s = t) : Writes p t := e ▸ h

theorem gap_nil : Gap [] := fun _ hc => absurd hc List.not_mem_nil

/-- what plain JSON writes for a character is a unit that stands for it -/
theorem writesUnit_escapeChar (c : Char) :
    ∃ u, WritesUnit u (escapeChar c) ∧
      ∀ us, unitsText? (u :: us) = (unitsText? us).map (c :: ·) := by
  rcases escapeChar_cases c with ⟨l, hl, e⟩ | ⟨h, e⟩ | ⟨h1, h2, h3, e⟩
  · have hall : ∀ p ∈ letterEscapes, escapedChar? p.1 = some p.2 := by decide
    rw [e]
    exact ⟨.char c, .letter (hall (l, c) hl), fun us => by rw [unitsText?]⟩
  · have hc := toNat_lt_of_lt h
    have hs : (' ' : Char).toNat = 32 := rfl
    have hcode := WritesUnit.code
      (hexDigit?_digitChar (show c.toNat / 4096 % 16 < 16 by omega))
      (hexDigit?_digitChar (show c.toNat / 256 % 16 < 16 by omega))
      (hexDigit?_digitChar (show c.toNat / 16 % 16 < 16 by omega))
      (hexDigit?_digitChar (show c.toNat % 16 < 16 by omega))
    have hvalue : c.toNat / 4096 % 16 * 4096 + c.toNat / 256 % 16 * 256 +
        c.toNat / 16 % 16 * 16 + c.toNat % 16 = c.toNat := by omega
    rw [hvalue] at hcode
    rw [e]
    exact ⟨.code c.toNat, hcode, unitsText?_code (by omega)⟩
  · rw [e]
    exact ⟨.char c, .plain h1 h2 h3, fun us => by rw [unitsText?]⟩

theorem writesUnits_flatMap (s : Text) :
    ∃ us, WritesUnits us (s.flatMap escapeChar) ∧ unitsText? us = some s := by
  induction s with
  | nil => exact ⟨[], .nil, rfl⟩
  | cons c s ih =>
    obtain ⟨us, hus, htext⟩ := ih
    obtain ⟨u, hu, hchar⟩ := writesUnit_escapeChar c
    exact ⟨u :: us, .cons hu hus, by rw [hchar, htext]; rfl⟩

/-- the text is written for a form that varies the value -/
def IsWritten (v : Value) : Prop := ∃ f, Varies v f ∧ Writes (.value f) v.toText

theorem writes_items {vs : List Value} (hne : vs ≠ []) (h : ∀ v ∈ vs, IsWritten v) :
    ∃ fs, VariesItems vs fs ∧ Writes (.items fs) (writeItems escapeChar vs) := by
  induction vs with
  | nil => exact absurd rfl hne
  | cons v vs ih =>
    obtain ⟨⟨f, hf, hw⟩, hvs⟩ := List.forall_mem_cons.1 h
    cases vs with
    | nil =>
      refine ⟨[f], .cons hf .nil, (Writes.lastItem gap_nil hw gap_nil).cast ?_⟩
      rw [writeItems]
      exact List.append_nil _
    | cons w vs =>
      obtain ⟨fs, hfs, hws⟩ := ih (List.cons_ne_nil w vs) hvs
      refine ⟨f :: fs, .cons hf hfs, (Writes.item gap_nil hw gap_nil hws).cast ?_⟩
      rw [writeItems]
      rfl

theorem writes_members {ms : List (Text × Value)} (hne : ms ≠ []) (h : ∀ m ∈ ms, IsWritten m.2) :
    ∃ fs, VariesFields ms fs ∧ Writes (.members fs) (writeMembers escapeChar ms) := by
  induction ms with
  | nil => exact absurd rfl hne
  | cons m ms ih =>
    obtain ⟨k, v⟩ := m
    obtain ⟨⟨f, hf, hw⟩, hms⟩ := List.forall_mem_cons.1 h
    obtain ⟨us, hus, htext⟩ := writesUnits_flatMap k
    cases ms with
    | nil =>
      refine ⟨[(us, f)], .kept htext hf .nil,
        (Writes.lastMember gap_nil hus gap_nil gap_nil hw gap_nil).cast ?_⟩
      rw [writeMembers, quote]
      simp [Value.toText]
    | cons n ms =>
      obtain ⟨fs, hfs, hws⟩ := ih (List.cons_ne_nil n ms) hms
      refine ⟨(us, f) :: fs, .kept htext hf hfs,
        (Writes.member gap_nil hus gap_nil gap_nil hw gap_nil hws).cast ?_⟩
      rw [writeMembers, quote]
      simp [Value.toText]

/-- **The text of a value is written for a form that varies it.** -/
theorem writes_of_wellFormed {v : Value} (hv : v.WellFormed) : IsWritten v := by
  induction hv with
  | null => exact ⟨.null, .null, Writes.null.cast (by rw [Value.toText, Value.write])⟩
  | bool b =>
    refine ⟨.bool b, .bool b, (Writes.bool b).cast ?_⟩
    cases b with
    | true => rw [Value.toText, Value.write]; rfl
    | false => rw [Value.toText, Value.write]; rfl
  | @number n h =>
    obtain ⟨l, hl, htext, hn⟩ := n.exists_lexeme h
    refine ⟨.number l.text, .number (by rw [Lexeme.ofText_text hl, hn]),
      (Writes.number (Lexeme.numberSpelling hl)).cast ?_⟩
    rw [htext, Value.toText, Value.write]
  | string s =>
    obtain ⟨us, hus, htext⟩ := writesUnits_flatMap s
    refine ⟨.string us, .string htext, (Writes.string hus).cast ?_⟩
    rw [Value.toText, Value.write, quote]
    rfl
  | @array items _ ih =>
    cases items with
    | nil =>
      refine ⟨.array [], .array .nil, (Writes.emptyArray gap_nil).cast ?_⟩
      rw [Value.toText, Value.write, writeItems]
      rfl
    | cons w vs =>
      obtain ⟨fs, hfs, hws⟩ := writes_items (List.cons_ne_nil w vs) ih
      refine ⟨.array fs, .array hfs, (Writes.array hws).cast ?_⟩
      rw [Value.toText, Value.write]
      rfl
  | @object members _ _ ih =>
    cases members with
    | nil =>
      refine ⟨.object [], .object [] [] .nil (fun m hm => absurd hm List.not_mem_nil)
        (List.Perm.refl _), (Writes.emptyObject gap_nil).cast ?_⟩
      rw [Value.toText, Value.write, writeMembers]
      rfl
    | cons m ms =>
      obtain ⟨fs, hfs, hws⟩ := writes_members (List.cons_ne_nil m ms) ih
      refine ⟨.object fs, .object fs [] hfs (fun m hm => absurd hm List.not_mem_nil) ?_,
        (Writes.object hws).cast ?_⟩
      · rw [List.append_nil]
      · rw [Value.toText, Value.write]
        rfl

end MarkdownModule.Json

import MarkdownModule.Proofs.Json.RoundTrip

/-!
# The grammar of JSON

`Json.Writes` tells which texts are written for a form, with any gaps between their parts, any
escapes in their strings and any spelling of their numbers.  Each of them is read as this form.

* `Json.Writes`                   the grammar
* `Json.Writes.isRead`            what is written is read, whatever stands behind it
* `Json.WritesText.parseForm?_eq` whole texts
-/

namespace MarkdownModule.Json

/-! ## the grammar -/

/-- a row of characters that may stand between the parts of a text -/
def Gap (s : Text) : Prop := ∀ c ∈ s, isGap c = true

inductive WritesUnit : StringUnit → Text → Prop
  | plain {c : Char} (hq : c ≠ '"') (hb : c ≠ '\\') (hc : ¬ c < ' ') : WritesUnit (.char c) [c]
  | letter {l c : Char} (h : escapedChar? l = some c) : WritesUnit (.char c) ['\\', l]
  | code {a b c d : Char} {w x y z : Nat} (ha : hexDigit? a = some w) (hb : hexDigit? b = some x)
      (hc : hexDigit? c = some y) (hd : hexDigit? d = some z) :
      WritesUnit (.code (w * 4096 + x * 256 + y * 16 + z)) ['\\', 'u', a, b, c, d]

inductive WritesUnits : List StringUnit → Text → Prop
  | nil : WritesUnits [] []
  | cons {u : StringUnit} {us : List StringUnit} {s t : Text} (hu : WritesUnit u s)
      (hs : WritesUnits us t) : WritesUnits (u :: us) (s ++ t)

/-- what is written: a value, or the inner part of an array or an object that is not empty -/
inductive Part where
  | value (f : Form)
  | items (fs : List Form)
  | members (ms : List (List StringUnit × Form))

/-- how a part is written; a value has no gap around it, the items and members have -/
inductive Writes : Part → Text → Prop
  | null : Writes (.value .null) "null".toList
  | bool (b : Bool) : Writes (.value (.bool b)) (if b then "true".toList else "false".toList)
  | number {s : Text} (h : NumberSpelling s) : Writes (.value (.number s)) s
  | string {us : List StringUnit} {s : Text} (h : WritesUnits us s) :
      Writes (.value (.string us)) ('"' :: (s ++ ['"']))
  | emptyArray {g : Text} (hg : Gap g) : Writes (.value (.array [])) ('[' :: (g ++ [']']))
  | array {fs : List Form} {s : Text} (h : Writes (.items fs) s) :
      Writes (.value (.array fs)) ('[' :: (s ++ [']']))
  | emptyObject {g : Text} (hg : Gap g) :
      Writes (.value (.object [])) ('\x7b' :: (g ++ ['\x7d']))
  | object {ms : List (List StringUnit × Form)} {s : Text} (h : Writes (.members ms) s) :
      Writes (.value (.object ms)) ('\x7b' :: (s ++ ['\x7d']))
  | lastItem {f : Form} {g s g' : Text} (hg : Gap g) (h : Writes (.value f) s) (hg' : Gap g') :
      Writes (.items [f]) (g ++ (s ++ g'))
  | item {f : Form} {fs : List Form} {g s g' t : Text} (hg : Gap g) (h : Writes (.value f) s)
      (hg' : Gap g') (ht : Writes (.items fs) t) :
      Writes (.items (f :: fs)) (g ++ (s ++ (g' ++ ',' :: t)))
  | lastMember {k : List StringUnit} {f : Form} {g₁ key g₂ g₃ s g₄ : Text} (h₁ : Gap g₁)
      (hk : WritesUnits k key) (h₂ : Gap g₂) (h₃ : Gap g₃) (h : Writes (.value f) s)
      (h₄ : Gap g₄) :
      Writes (.members [(k, f)])
        (g₁ ++ '"' :: (key ++ '"' :: (g₂ ++ ':' :: (g₃ ++ (s ++ g₄)))))
  | member {k : List StringUnit} {f : Form} {ms : List (List StringUnit × Form)}
      {g₁ key g₂ g₃ s g₄ t : Text} (h₁ : Gap g₁) (hk : WritesUnits k key) (h₂ : Gap g₂)
      (h₃ : Gap g₃) (h : Writes (.value f) s) (h₄ : Gap g₄) (ht : Writes (.members ms) t) :
      Writes (.members ((k, f) :: ms))
        (g₁ ++ '"' :: (key ++ '"' :: (g₂ ++ ':' :: (g₃ ++ (s ++ (g₄ ++ ',' :: t))))))

inductive WritesText (f : Form) : Text → Prop
  | mk {g s g' : Text} (hg : Gap g) (h : Writes (.value f) s) (hg' : Gap g') :
      WritesText f (g ++ (s ++ g'))

/-! ## strings -/

theorem readUnits_of_writesUnit {u : StringUnit} {s : Text} (h : WritesUnit u s) (r : Text) :
    readUnits (s ++ r) = (readUnits r).map fun t => (u :: t.1, t.2) := by
  cases h with
  | plain hq hb hc => exact readUnits_plain hq hb hc r
  | letter h => exact readUnits_letter h r
  | code ha hb hc hd =>
    simp only [List.cons_append, List.nil_append]
    rw [readUnits, ha, hb, hc, hd]
    simp only [Option.bind_eq_bind, Option.bind_some]
    cases readUnits r with
    | none => rfl
    | some t => rfl

/-- the units of a string are read up to its closing quote -/
theorem WritesUnits.read {us : List StringUnit} {s : Text} (h : WritesUnits us s) (r : Text) :
    readUnits (s ++ '"' :: r) = some (us, r) := by
  induction h with
  | nil => rw [List.nil_append, readUnits]
  | cons hu _ ih =>
    rw [List.append_assoc, readUnits_of_writesUnit hu, ih]
    rfl

/-! ## values -/

theorem skipGap_append {g : Text} (hg : Gap g) (s : Text) : skipGap (g ++ s) = skipGap s := by
  induction g with
  | nil => rfl
  | cons c g ih =>
    obtain ⟨hc, hg⟩ := List.forall_mem_cons.1 hg
    exact (List.dropWhile_cons_of_pos hc).trans (ih hg)

theorem readValue_append {g : Text} (hg : Gap g) (fuel : Nat) (s : Text) :
    readValue fuel (g ++ s) = readValue fuel s := by
  induction g with
  | nil => rfl
  | cons c g ih =>
    obtain ⟨hc, hg⟩ := List.forall_mem_cons.1 hg
    rw [List.cons_append, readValue_gap hc, ih hg]

/-- a number ends before a gap -/
theorem endsNumber_gap {g r : Text} (hg : Gap g) (hr : EndsNumber r) : EndsNumber (g ++ r) := by
  cases g with
  | nil => exact hr
  | cons c g =>
    have hc := hg c List.mem_cons_self
    intro d hd
    rw [← Option.some.inj hd]
    simp only [isGap, Bool.or_eq_true, decide_eq_true_eq] at hc
    rcases hc with ((rfl | rfl) | rfl) | rfl <;> decide

theorem skipGap_mark {g : Text} (hg : Gap g) {c : Char} (hc : isGap c = false) (r : Text) :
    skipGap (g ++ c :: r) = c :: r := by
  rw [skipGap_append hg, skipGap_cons hc]

/-- what it means that a part is read: whatever stands behind it, with fuel for its length -/
def Part.IsRead : Part → Text → Prop
  | .value f, s => (∃ c t, s = c :: t ∧ isGap c = false ∧ c ≠ ']') ∧
      ∀ fuel r, s.length ≤ fuel → EndsNumber r → readValue fuel (s ++ r) = some (f, r)
  | .items fs, s => (∀ r, ∃ c t, skipGap (s ++ r) = c :: t ∧ c ≠ ']') ∧
      ∀ fuel r, s.length < fuel → readItems fuel (s ++ ']' :: r) = some (fs, r)
  | .members ms, s => (∀ r, ∃ t, skipGap (s ++ r) = '"' :: t) ∧
      ∀ fuel r, s.length < fuel → readMembers fuel (s ++ '\x7d' :: r) = some (ms, r)

section
variable {f : Form} {g s g' : Text}

/-- a value with gaps around it, before a mark -/
theorem Part.IsRead.gaps (h : IsRead (.value f) s) (hg : Gap g) (hg' : Gap g') {c : Char}
    (hc : c = ',' ∨ c = ']' ∨ c = '\x7d' ∨ c = ' ') {fuel : Nat} (hf : s.length ≤ fuel) (r : Text) :
    readValue fuel (g ++ (s ++ (g' ++ c :: r))) = some (f, g' ++ c :: r) := by
  rw [readValue_append hg]
  exact h.2 fuel _ hf (endsNumber_gap hg' (endsNumber_cons hc r))

/-- behind a gap a value does not begin as an array ends -/
theorem Part.IsRead.head (h : IsRead (.value f) s) (hg : Gap g) (r : Text) :
    ∃ c t, skipGap (g ++ (s ++ r)) = c :: t ∧ c ≠ ']' := by
  obtain ⟨⟨c, t, rfl, hgap, hc⟩, -⟩ := h
  exact ⟨c, t ++ r, skipGap_mark hg hgap _, hc⟩

/-- a value takes one unit of fuel -/
theorem Part.IsRead.of_cons {c : Char} (hgap : isGap c = false) (hc : c ≠ ']')
    (h : ∀ fuel r, s.length ≤ fuel → EndsNumber r →
      readValue (fuel + 1) (c :: (s ++ r)) = some (f, r)) : IsRead (.value f) (c :: s) := by
  refine ⟨⟨c, s, rfl, hgap, hc⟩, fun fuel r hf hr => ?_⟩
  obtain ⟨fuel, rfl⟩ := Nat.exists_eq_add_of_le' (Nat.le_trans (Nat.succ_pos _) hf)
  exact h fuel r (Nat.le_of_succ_le_succ hf) hr

/-- a row takes one unit of fuel -/
theorem exists_fuel {n fuel : Nat} (h : n < fuel) : ∃ k, fuel = k + 1 ∧ n ≤ k :=
  ⟨fuel - 1, by omega, by omega⟩

end

theorem readValue_emptyArray {g : Text} (hg : Gap g) (fuel : Nat) (r : Text) :
    readValue (fuel + 1) ('[' :: (g ++ ']' :: r)) = some (.array [], r) := by
  rw [readValue, skipGap_cons rfl]
  dsimp only
  rw [if_neg (by decide), if_neg (by decide), if_neg (by decide), if_neg (by decide), if_pos rfl,
    skipGap_mark hg rfl]
  rfl

theorem readValue_emptyObject {g : Text} (hg : Gap g) (fuel : Nat) (r : Text) :
    readValue (fuel + 1) ('\x7b' :: (g ++ '\x7d' :: r)) = some (.object [], r) := by
  rw [readValue, skipGap_cons rfl]
  dsimp only
  rw [if_neg (by decide), if_neg (by decide), if_neg (by decide), if_neg (by decide),
    if_neg (by decide), if_pos rfl, skipGap_mark hg rfl]
  rfl

/-- **What is written for a part is read as this part.**  The fuel of a part is its length. -/
theorem Writes.isRead {p : Part} {s : Text} (h : Writes p s) : p.IsRead s := by
  induction h with
  | null => exact .of_cons rfl (by decide) fun _ _ _ _ => rfl
  | bool b =>
    cases b with
    | true => exact .of_cons rfl (by decide) fun _ _ _ _ => rfl
    | false => exact .of_cons rfl (by decide) fun _ _ _ _ => rfl
  | number h =>
    obtain ⟨c, t, rfl, hc⟩ := h.head
    refine .of_cons (isGap_of_number hc) (ne_of_number hc (by decide)) fun fuel r _ hr => ?_
    have hread := h.read hr
    rw [List.cons_append] at hread
    rw [readValue_number hc, hread]
    rfl
  | @string us s h =>
    refine .of_cons rfl (by decide) fun fuel r _ _ => ?_
    rw [List.append_assoc, readValue, skipGap_cons rfl]
    show (readUnits (s ++ '"' :: r)).map (fun t => (Form.string t.1, t.2)) = _
    rw [h.read r]
    rfl
  | emptyArray hg =>
    refine .of_cons rfl (by decide) fun fuel r _ _ => ?_
    rw [List.append_assoc]
    exact readValue_emptyArray hg fuel r
  | @array fs s h ih =>
    obtain ⟨hhead, hread⟩ := ih
    refine .of_cons rfl (by decide) fun fuel r hf _ => ?_
    rw [List.length_append, List.length_singleton] at hf
    obtain ⟨c, t, e, hc⟩ := hhead (']' :: r)
    rw [List.append_assoc, List.singleton_append, readValue_items e hc, hread fuel r hf]
    rfl
  | emptyObject hg =>
    refine .of_cons rfl (by decide) fun fuel r _ _ => ?_
    rw [List.append_assoc]
    exact readValue_emptyObject hg fuel r
  | @object ms s h ih =>
    obtain ⟨hhead, hread⟩ := ih
    refine .of_cons rfl (by decide) fun fuel r hf _ => ?_
    rw [List.length_append, List.length_singleton] at hf
    obtain ⟨t, e⟩ := hhead ('\x7d' :: r)
    rw [List.append_assoc, List.singleton_append, readValue_members e, hread fuel r hf]
    rfl
  | lastItem hg _ hg' ih =>
    refine ⟨fun r => ?_, fun fuel r hf => ?_⟩
    · rw [List.append_assoc, List.append_assoc]
      exact ih.head hg _
    · obtain ⟨fuel, rfl, hf'⟩ := exists_fuel hf
      rw [List.length_append, List.length_append] at hf'
      rw [List.append_assoc, List.append_assoc]
      exact readItems_last (ih.gaps hg hg' (.inr (.inl rfl)) (by omega) r) (skipGap_mark hg' rfl r)
  | item hg _ hg' _ ih iht =>
    refine ⟨fun r => ?_, fun fuel r hf => ?_⟩
    · rw [List.append_assoc, List.append_assoc]
      exact ih.head hg _
    · obtain ⟨fuel, rfl, hf'⟩ := exists_fuel hf
      rw [List.length_append, List.length_append, List.length_append, List.length_cons] at hf'
      rw [List.append_assoc, List.append_assoc, List.append_assoc, List.cons_append]
      exact readItems_comma (ih.gaps hg hg' (.inl rfl) (by omega) _) (skipGap_mark hg' rfl _)
        (iht.2 fuel r (by omega))
  | lastMember h₁ hk h₂ h₃ _ h₄ ih =>
    refine ⟨fun r => ?_, fun fuel r hf => ?_⟩
    · rw [List.append_assoc, List.cons_append]
      exact ⟨_, skipGap_mark h₁ rfl _⟩
    · obtain ⟨fuel, rfl, hf'⟩ := exists_fuel hf
      simp only [List.length_append, List.length_cons] at hf'
      simp only [List.append_assoc, List.cons_append]
      exact readMembers_last (skipGap_mark h₁ rfl _) (hk.read _) (skipGap_mark h₂ rfl _)
        (ih.gaps h₃ h₄ (.inr (.inr (.inl rfl))) (by omega) r) (skipGap_mark h₄ rfl r)
  | member h₁ hk h₂ h₃ _ h₄ _ ih iht =>
    refine ⟨fun r => ?_, fun fuel r hf => ?_⟩
    · rw [List.append_assoc, List.cons_append]
      exact ⟨_, skipGap_mark h₁ rfl _⟩
    · obtain ⟨fuel, rfl, hf'⟩ := exists_fuel hf
      simp only [List.length_append, List.length_cons] at hf'
      simp only [List.append_assoc, List.cons_append]
      exact readMembers_comma (skipGap_mark h₁ rfl _) (hk.read _) (skipGap_mark h₂ rfl _)
        (ih.gaps h₃ h₄ (.inl rfl) (by omega) _) (skipGap_mark h₄ rfl _) (iht.2 fuel r (by omega))

/-- **What is written for a form is read as this form.** -/
theorem WritesText.parseForm?_eq {f : Form} {s : Text} (h : WritesText f s) :
    parseForm? s = some f := by
  cases h with
  | @mk g s g' hg h hg' =>
    have hends := endsNumber_gap hg' (r := []) fun c hc => nomatch hc
    rw [List.append_nil] at hends
    have hread := h.isRead.2 (2 * (g ++ (s ++ g')).length + 1) g' (by simp; omega) hends
    have hrest : skipGap g' = [] := by
      have := skipGap_append hg' []
      rwa [List.append_nil] at this
    unfold parseForm?
    rw [readValue_append hg, hread]
    dsimp only [Option.bind_eq_bind, Option.bind_some]
    rw [hrest]
    rfl

end MarkdownModule.Json

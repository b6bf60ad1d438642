import MarkdownModule.Proofs.Html.Reference

/-!
# Which texts are decoded as themselves

Readers of markup do not know the same character references.  What a reader makes of a text is told
by the references that it knows: each of them is more than one character and stands for one.

* `Html.References`                         the references that a reader knows
* `Html.References.decode_eq_self_iff`      the texts without references
* `Html.References.decode_encodeDoubleQuoted`  a text as it is written between double quotes
* `Html.References.decode_all`              the references of the standard
-/

namespace MarkdownModule.Html

/-- the references that a reader knows -/
structure References where
  /-- a reference after its `&`: the character that it stands for, and the text after it -/
  read? : Text → Option (Char × Text)
  shorter : ∀ {s rest : Text} {c : Char}, read? s = some (c, rest) → rest.length < s.length

namespace References

def decode (known : References) : Text → Text
  | [] => []
  | c :: r =>
    if c = '&' then
      match _h : known.read? r with
      | some (d, rest) => d :: known.decode rest
      | none => '&' :: known.decode r
    else c :: known.decode r
termination_by s => s.length
decreasing_by
  · exact Nat.lt_succ_of_lt (known.shorter ‹_›)
  · exact Nat.lt_succ_self _
  · exact Nat.lt_succ_self _

/-- the references of the characters that are not written between double quotes -/
structure Basic (known : References) : Prop where
  ampersand (r : Text) : known.read? ("amp;".toList ++ r) = some ('&', r)
  less (r : Text) : known.read? ("lt;".toList ++ r) = some ('<', r)
  greater (r : Text) : known.read? ("gt;".toList ++ r) = some ('>', r)
  quote (r : Text) : known.read? ("quot;".toList ++ r) = some ('"', r)

/-- no reference that the reader knows is in the text -/
def AbsentFrom (known : References) (s : Text) : Prop :=
  ∀ a b, s = a ++ '&' :: b → known.read? b = none

variable {known : References} {c : Char} {r : Text}

theorem decode_nil : known.decode [] = [] := by rw [decode]

theorem decode_cons (hc : c ≠ '&') : known.decode (c :: r) = c :: known.decode r := by
  rw [decode, if_neg hc]

theorem decode_reference {d : Char} {rest : Text} (h : known.read? r = some (d, rest)) :
    known.decode ('&' :: r) = d :: known.decode rest := by
  rw [decode, if_pos rfl, h]

theorem decode_ampersand (h : known.read? r = none) :
    known.decode ('&' :: r) = '&' :: known.decode r := by
  rw [decode, if_pos rfl, h]

/-! ## texts without references -/

theorem length_decode_le (known : References) (s : Text) :
    (known.decode s).length ≤ s.length := by
  induction hk : s.length using Nat.strongRecOn generalizing s with
  | _ k ih =>
    cases s with
    | nil => exact Nat.le_of_eq ((congrArg List.length decode_nil).trans hk)
    | cons c r =>
      rw [List.length_cons] at hk
      by_cases hc : c = '&'
      · subst hc
        cases h : known.read? r with
        | none =>
          have hr := ih r.length (by omega) r rfl
          rw [decode_ampersand h, List.length_cons]
          omega
        | some p =>
          have hshort := known.shorter h
          have hrest := ih p.2.length (by omega) p.2 rfl
          rw [decode_reference h, List.length_cons]
          omega
      · have hr := ih r.length (by omega) r rfl
        rw [decode_cons hc, List.length_cons]
        omega

theorem absentFrom_nil : known.AbsentFrom [] := fun a b h => by simp at h

theorem absentFrom_cons : known.AbsentFrom (c :: r) ↔
    (c = '&' → known.read? r = none) ∧ known.AbsentFrom r := by
  constructor
  · intro h
    exact ⟨fun hc => h [] r (by rw [hc]; rfl), fun a b e => h (c :: a) b (by rw [e]; rfl)⟩
  · rintro ⟨hhead, htail⟩ a b e
    cases a with
    | nil =>
      obtain ⟨rfl, rfl⟩ := List.cons.inj e
      exact hhead rfl
    | cons d a => exact htail a b (List.cons.inj e).2

/-- **A text is decoded as itself exactly when no reference is in it.** -/
theorem decode_eq_self_iff (known : References) (s : Text) :
    known.decode s = s ↔ known.AbsentFrom s := by
  induction s with
  | nil => exact iff_of_true decode_nil absentFrom_nil
  | cons c r ih =>
    rw [absentFrom_cons, ← ih]
    by_cases hc : c = '&'
    · subst hc
      cases h : known.read? r with
      | none =>
        rw [decode_ampersand h, List.cons.injEq, eq_self_iff_true, true_and, true_imp_iff,
          eq_self_iff_true, true_and]
      | some p =>
        refine iff_of_false (fun e => ?_) fun e => nomatch e.1 rfl
        rw [decode_reference h] at e
        have hlength := congrArg List.length e
        have hrest := length_decode_le known p.2
        have hshort := known.shorter h
        rw [List.length_cons, List.length_cons] at hlength
        omega
    · rw [decode_cons hc, List.cons.injEq, eq_self_iff_true, true_and]
      exact (and_iff_right fun e => absurd e hc).symm

/-! ## texts between double quotes -/

theorem encodeChar_cases (c : Char) :
    (c = '&' ∧ encodeChar c = "&amp;".toList) ∨ (c = '<' ∧ encodeChar c = "&lt;".toList) ∨
      (c = '>' ∧ encodeChar c = "&gt;".toList) ∨ (c = '"' ∧ encodeChar c = "&quot;".toList) ∨
      (c ≠ '&' ∧ c ≠ '"' ∧ encodeChar c = [c]) := by
  unfold encodeChar
  by_cases h1 : c = '&'
  · exact .inl ⟨h1, if_pos h1⟩
  rw [if_neg h1]
  by_cases h2 : c = '<'
  · exact .inr (.inl ⟨h2, if_pos h2⟩)
  rw [if_neg h2]
  by_cases h3 : c = '>'
  · exact .inr (.inr (.inl ⟨h3, if_pos h3⟩))
  rw [if_neg h3]
  by_cases h4 : c = '"'
  · exact .inr (.inr (.inr (.inl ⟨h4, if_pos h4⟩)))
  · exact .inr (.inr (.inr (.inr ⟨h1, h4, if_neg h4⟩)))

theorem quote_not_mem_encodeDoubleQuoted (s : Text) : '"' ∉ encodeDoubleQuoted s := by
  intro h
  obtain ⟨c, -, hc⟩ := List.mem_flatMap.1 h
  rcases encodeChar_cases c with ⟨-, e⟩ | ⟨-, e⟩ | ⟨-, e⟩ | ⟨-, e⟩ | ⟨-, hne, e⟩
  · exact absurd (e ▸ hc) (by decide)
  · exact absurd (e ▸ hc) (by decide)
  · exact absurd (e ▸ hc) (by decide)
  · exact absurd (e ▸ hc) (by decide)
  · exact hne (List.mem_singleton.1 (e ▸ hc)).symm

/-- **What is written between double quotes is decoded as the text.** -/
theorem decode_encodeDoubleQuoted (h : known.Basic) (s : Text) :
    known.decode (encodeDoubleQuoted s) = s := by
  induction s with
  | nil => exact decode_nil
  | cons c s ih =>
    have hs : encodeDoubleQuoted (c :: s) = encodeChar c ++ encodeDoubleQuoted s :=
      List.flatMap_cons
    have hread : ∀ {t : Text} {d : Char},
        known.read? (t ++ encodeDoubleQuoted s) = some (d, encodeDoubleQuoted s) →
          known.decode ('&' :: t ++ encodeDoubleQuoted s) = d :: s := fun h => by
      rw [List.cons_append, decode_reference h, ih]
    rw [hs]
    rcases encodeChar_cases c with ⟨rfl, e⟩ | ⟨rfl, e⟩ | ⟨rfl, e⟩ | ⟨rfl, e⟩ | ⟨hc, -, e⟩
    · rw [e]
      exact hread (h.ampersand _)
    · rw [e]
      exact hread (h.less _)
    · rw [e]
      exact hread (h.greater _)
    · rw [e]
      exact hread (h.quote _)
    · rw [e, List.singleton_append, decode_cons hc, ih]

/-! ## the references of the standard -/

def all : References := ⟨readReference?, length_of_readReference⟩

theorem decode_all (s : Text) : all.decode s = decodeReferences s := by
  induction hk : s.length using Nat.strongRecOn generalizing s with
  | _ k ih =>
    cases s with
    | nil => rw [decode_nil, decodeReferences]
    | cons c r =>
      rw [List.length_cons] at hk
      by_cases hc : c = '&'
      · subst hc
        cases h : readReference? r with
        | none => rw [decode_ampersand h, decodeReferences_ampersand h, ih r.length (by omega) r rfl]
        | some p =>
          have hshort := length_of_readReference h
          have hall : all.decode ('&' :: r) = p.1 :: all.decode p.2 := decode_reference h
          rw [hall, decodeReferences_reference h, ih p.2.length (by omega) p.2 rfl]
      · rw [decode_cons hc, decodeReferences_cons hc, ih r.length (by omega) r rfl]

theorem basic_all : all.Basic := by
  have hname : ∀ (name : Text) (c : Char), name.head? ≠ some '#' →
      name.all Char.isAlphanum = true → (namedText? name).bind (·.toList.head?) = some c →
      ∀ r, readReference? (name ++ ';' :: r) = some (c, r) := by
    intro name c hhead hchars hvalue r
    have hspan := Text.span_cons_of_forall (List.all_eq_true.1 hchars) (c := ';') rfl r
    have hhead' : (name ++ ';' :: r).head? ≠ some '#' := by
      cases name with
      | nil => exact nofun
      | cons d name => exact hhead
    obtain ⟨v, hv, hc⟩ := Option.bind_eq_some_iff.1 hvalue
    rw [readReference?_named hhead', hspan.1, hspan.2, afterSemicolon?, Option.bind_some, hv,
      Option.bind_some, hc, Option.map_some]
  exact ⟨hname "amp".toList '&' (by decide) (by decide) (by decide +kernel),
    hname "lt".toList '<' (by decide) (by decide) (by decide +kernel),
    hname "gt".toList '>' (by decide) (by decide) (by decide +kernel),
    hname "quot".toList '"' (by decide) (by decide) (by decide +kernel)⟩

end References

end MarkdownModule.Html

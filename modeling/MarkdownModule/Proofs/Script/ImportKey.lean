import MarkdownModule.Proofs.Component.Binding
import MarkdownModule.Proofs.Script.StringLiteral
import MarkdownModule.Proofs.Text.Ends

/-!
# The keys of import statements

* `Script.importKey_literal`                   the key of a statement that ends in the path of a module
* `Script.Module.importKey_defaultImport_inj`  the key of a default import tells its binding and path
* `ComponentRegistry.reactImport_key`          no component is imported as the library that React needs
-/

namespace MarkdownModule

namespace Script

/-- outside of quotes the key is the statement without its blanks -/
theorem importKeyFrom_plain {s : Text} (h : ∀ c ∈ s, opensString c = false) (t : Text) :
    importKeyFrom .plain (s ++ t) = s.filter (fun c => !isBlank c) ++ importKeyFrom .plain t := by
  induction s with
  | nil => rfl
  | cons c s ih =>
    obtain ⟨hc, hs⟩ := List.forall_mem_cons.1 h
    rw [List.cons_append, importKeyFrom, if_neg (by rw [hc]; decide), ih hs]
    cases hb : isBlank c with
    | true =>
      rw [if_pos rfl, List.filter_cons_of_neg (by rw [hb]; decide)]
    | false =>
      rw [if_neg Bool.false_ne_true, List.filter_cons_of_pos (by rw [hb]; decide), List.cons_append]

/-- inside of quotes the key is the statement as it is -/
theorem importKeyFrom_sealed {s : Text} (h : Sealed s) (t : Text) :
    importKeyFrom (.quoted '"') (s ++ '"' :: t) = s ++ '"' :: importKeyFrom .plain t := by
  induction h with
  | nil => rfl
  | char hq hb _ ih =>
    rw [List.cons_append, importKeyFrom, if_neg hb, if_neg hq, ih, List.cons_append]
  | escape c _ ih =>
    rw [List.cons_append, importKeyFrom, if_pos rfl, List.cons_append, importKeyFrom, ih]
    rfl

theorem importKeyFrom_stringLiteral (path t : Text) :
    importKeyFrom .plain (stringLiteral path ++ t) =
      stringLiteral path ++ importKeyFrom .plain t := by
  have hsealed : Sealed (path.flatMap escapeChar) :=
    sealed_flatMap (fun c => (safe_escapeChar c).isSealed) path
  have e : ∀ t, stringLiteral path ++ t = '"' :: (path.flatMap escapeChar ++ '"' :: t) := by
    intro t
    simp [stringLiteral, Json.quote]
  rw [e, e, importKeyFrom, if_pos (by decide), importKeyFrom_sealed hsealed]

/-- the key of a statement that ends in the path of a module -/
theorem importKey_literal {s : Text} (h : ∀ c ∈ s, opensString c = false) (path : Text) :
    importKey (s ++ (stringLiteral path ++ [';'])) =
      s.filter (fun c => !isBlank c) ++ (stringLiteral path ++ [';']) := by
  rw [importKey, importKeyFrom_plain h, importKeyFrom_stringLiteral]
  rfl

/-- two literals are the same text, whatever follows, when their strings and what follows agree -/
theorem stringLiteral_append_inj {p q s t : Text}
    (h : stringLiteral p ++ s = stringLiteral q ++ t) : p = q ∧ s = t := by
  have hp := readLiteral?_quote spellsChar_escapeChar p s
  have hq := readLiteral?_quote spellsChar_escapeChar q t
  rw [stringLiteral] at h
  rw [h] at hp
  exact Prod.mk.inj (Option.some.inj (hp.symm.trans hq))

/-- a text without quotes and the literal behind it can be told apart -/
theorem append_stringLiteral_inj {a b p q s t : Text} (ha : '"' ∉ a) (hb : '"' ∉ b)
    (h : a ++ (stringLiteral p ++ s) = b ++ (stringLiteral q ++ t)) : a = b ∧ p = q := by
  have hne : ∀ {x : Text}, '"' ∉ x → ∀ c ∈ x, (c != '"') = true :=
    fun hx c hc => bne_iff_ne.2 fun e => hx (e ▸ hc)
  have hhead : ∀ {x y : Text}, ∀ c ∈ (stringLiteral x ++ y).head?, (c != '"') = false := by
    intro x y c hc
    rw [← Option.some.inj hc]
    rfl
  have h1 := (Text.span_of_forall (hne ha) (hhead (x := p) (y := s))).1
  have h2 := (Text.span_of_forall (hne hb) (hhead (x := q) (y := t))).1
  rw [h, h2] at h1
  subst h1
  exact ⟨rfl, (stringLiteral_append_inj (List.append_cancel_left h)).1⟩

/-- the characters of a binding are no blanks and no quotes -/
structure IsBinding (b : Text) : Prop where
  chars : ∀ c ∈ b, Html.isNameChar c = true

/-- the text has no blanks and no quotes -/
structure Unspaced (s : Text) : Prop where
  plain : ∀ c ∈ s, opensString c = false
  nonblank : ∀ c ∈ s, isBlank c = false

theorem Unspaced.append {s t : Text} (hs : Unspaced s) (ht : Unspaced t) : Unspaced (s ++ t) where
  plain := List.forall_mem_append.2 ⟨hs.plain, ht.plain⟩
  nonblank := List.forall_mem_append.2 ⟨hs.nonblank, ht.nonblank⟩

theorem Unspaced.quote_not_mem {s : Text} (h : Unspaced s) : '"' ∉ s :=
  fun hm => absurd (h.plain _ hm) (by decide)

theorem Unspaced.filter {s : Text} (h : Unspaced s) : s.filter (fun c => !isBlank c) = s :=
  List.filter_eq_self.2 fun c hc => by rw [h.nonblank c hc]; rfl

theorem IsBinding.unspaced {b : Text} (h : IsBinding b) : Unspaced b where
  plain := by
    intro c hc
    have hn := h.chars c hc
    have h1 : c ≠ '\'' := Html.isNameChar_ne hn (by decide)
    have h2 : c ≠ '"' := Html.isNameChar_ne hn (by decide)
    have h3 : c ≠ '\x60' := Html.isNameChar_ne hn (by decide)
    simp [opensString, h1, h2, h3]
  nonblank c hc := Html.isBlank_of_isNameChar (h.chars c hc)

theorem isBinding_pascal (name : Text) : IsBinding (Naming.pascal name) where
  chars c hc := by
    have := Naming.isAlphanum_of_mem_pascal hc
    simp [Html.isNameChar, this]

theorem isBinding_bindingFor (name : Text) : IsBinding (bindingFor (Naming.pascal name)) where
  chars c hc := by
    unfold bindingFor at hc
    split at hc
    · rcases List.mem_append.1 hc with hc | hc
      · exact (isBinding_pascal name).chars c hc
      · rw [List.mem_singleton.1 hc]
        decide
    · exact (isBinding_pascal name).chars c hc

namespace Module

/-- the key of a default import -/
theorem importKey_defaultImport {b : Text} (hb : Unspaced b) (path : Text) :
    importKey (defaultImport b path) =
      "import".toList ++ b ++ "from".toList ++ (stringLiteral path ++ [';']) := by
  have h1 : ∀ c ∈ "import ".toList, opensString c = false := by simp [opensString]
  have h2 : ∀ c ∈ " from ".toList, opensString c = false := by simp [opensString]
  have hplain : ∀ c ∈ "import ".toList ++ b ++ " from ".toList, opensString c = false :=
    List.forall_mem_append.2 ⟨List.forall_mem_append.2 ⟨h1, hb.plain⟩, h2⟩
  have e1 : "import ".toList.filter (fun c => !isBlank c) = "import".toList := by simp [isBlank]
  have e2 : " from ".toList.filter (fun c => !isBlank c) = "from".toList := by simp [isBlank]
  unfold defaultImport
  rw [List.append_assoc _ (stringLiteral path), importKey_literal hplain, List.filter_append,
    List.filter_append, hb.filter, e1, e2]

/-- **The key of a default import tells its binding and its path.** -/
theorem importKey_defaultImport_inj {a b p q : Text} (ha : Unspaced a) (hb : Unspaced b)
    (h : importKey (defaultImport a p) = importKey (defaultImport b q)) : a = b ∧ p = q := by
  rw [importKey_defaultImport ha, importKey_defaultImport hb] at h
  have hquote : ∀ {x : Text}, Unspaced x → '"' ∉ "import".toList ++ x ++ "from".toList := by
    intro x hx
    have := hx.quote_not_mem
    simp [this]
  obtain ⟨e, hp⟩ := append_stringLiteral_inj (hquote ha) (hquote hb) h
  exact ⟨List.append_cancel_left (List.append_cancel_right e), hp⟩

/-- the key of a named import begins with a brace -/
theorem importKey_namedImport (name b path : Text) :
    ∃ r, importKey (namedImport name b path) = "import".toList ++ '\x7b' :: r := by
  have hplain : ∀ c ∈ "import \x7b ".toList, opensString c = false := by simp [opensString]
  have hfilter : "import \x7b ".toList.filter (fun c => !isBlank c) =
      "import".toList ++ ['\x7b'] := by simp [isBlank]
  unfold importKey namedImport
  dsimp only
  rw [List.append_assoc, List.append_assoc, List.append_assoc, importKeyFrom_plain hplain, hfilter,
    List.append_assoc]
  exact ⟨_, rfl⟩

/-- no default import has the key of a named one -/
theorem importKey_defaultImport_ne {b : Text} (hb : IsBinding b) (path name b' path' : Text) :
    importKey (defaultImport b path) ≠ importKey (namedImport name b' path') := by
  obtain ⟨r, hr⟩ := importKey_namedImport name b' path'
  rw [importKey_defaultImport hb.unspaced, hr, List.append_assoc, List.append_assoc]
  intro h
  have h := List.append_cancel_left h
  cases b with
  | nil => exact absurd (List.cons.inj h).1 (by decide)
  | cons c b =>
    have hc := hb.chars c List.mem_cons_self
    exact Html.isNameChar_ne hc (by decide) (List.cons.inj h).1

end Module

/-- the statement that imports the library that React components need -/
def reactImport : Text := "import React from \"react\";".toList

theorem defaultImport_react :
    Module.defaultImport reactBinding "react".toList = reactImport := by decide +kernel

end Script

namespace ComponentRegistry

theorem isBinding_of_mem_scan (g : ComponentRegistry) {html : Text} {r : ComponentReference}
    (hr : r ∈ ComponentReference.scan html) : Script.IsBinding (g.resolve r).binding := by
  obtain ⟨n, -, -, hn⟩ := ComponentReference.exists_of_mem_scan hr
  rw [binding_resolve, ← hn]
  exact Script.isBinding_bindingFor n

/-- **No component is imported by the statement of the library that React needs.** -/
theorem reactImport_key (g : ComponentRegistry) {html : Text} {r : ComponentReference}
    (hr : r ∈ ComponentReference.scan html) :
    Script.importKey (g.resolve r).statement ≠ Script.importKey Script.reactImport := by
  have hreact : Script.IsBinding Script.reactBinding := ⟨by simp [Script.reactBinding, Html.isNameChar]⟩
  have hreserved := Script.bindingFor_not_reserved (ComponentReference.pascal_of_mem_scan hr).1
  intro h
  rw [← Script.defaultImport_react] at h
  unfold ComponentImport.statement at h
  split at h
  · exact Script.Module.importKey_defaultImport_ne hreact _ _ _ _ h.symm
  · have e := (Script.Module.importKey_defaultImport_inj (g.isBinding_of_mem_scan hr).unspaced
      hreact.unspaced h).1
    rw [binding_resolve] at e
    rw [e] at hreserved
    exact hreserved List.mem_cons_self

end ComponentRegistry

end MarkdownModule

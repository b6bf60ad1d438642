import MarkdownModule.Proofs.Naming.Canonical
import MarkdownModule.Proofs.Script.ImportKey

/-!
# The imports of a document

Every reference of a document asks for an import, and a module keeps one statement of each key.  A
statement tells its import, but its key has no spaces around `as`.

* `ComponentImport.Declares`             what an import statement declares
* `ComponentImport.statement_inj`        two imports have two statements
* `ComponentImport.eq_or_glued_of_key`   which two imports can have one key
* `ComponentRegistry.imported_iff`       no import is lost exactly when no two different imports have
                                         one key
* `ComponentRegistry.import_lost`        a document that loses an import
-/

namespace MarkdownModule

namespace Naming

/-! ## the length of a spelling -/

/-- the Pascal spelling has one character for each letter and digit of the name -/
theorem length_pascal (name : Text) : (pascal name).length = name.countP Char.isAlphanum := by
  have h := congrArg List.length ((lower_pascal name).trans (flatten_words name))
  rwa [Text.lower, Text.lower, List.length_map, List.length_map,
    ← List.countP_eq_length_filter] at h

theorem countP_pascal (name : Text) :
    (pascal name).countP Char.isAlphanum = name.countP Char.isAlphanum := by
  rw [← length_pascal name]
  exact List.countP_eq_length.2 fun c hc => isAlphanum_of_mem_pascal hc

end Naming

/-! ## declarations -/

namespace Script.Module

theorem namedImport_self (name path : Text) : namedImport name name path =
    "import \x7b ".toList ++ name ++ " \x7d from ".toList ++ stringLiteral path ++ [';'] := by
  unfold namedImport
  dsimp only
  rw [if_pos rfl]

theorem namedImport_of_ne {name binding : Text} (h : name ≠ binding) (path : Text) :
    namedImport name binding path = "import \x7b ".toList ++ (name ++ " as ".toList ++ binding) ++
      " \x7d from ".toList ++ stringLiteral path ++ [';'] := by
  unfold namedImport
  dsimp only
  rw [if_neg h]

end Script.Module

namespace ComponentImport

inductive Declares : Text → ComponentImport → Prop
  /-- the default export under a local name -/
  | default (binding path : Text) :
      Declares ("import ".toList ++ binding ++ " from ".toList ++ Script.stringLiteral path ++ [';'])
        ⟨binding, path, none⟩
  /-- an exported name under itself -/
  | named (name path : Text) :
      Declares ("import \x7b ".toList ++ name ++ " \x7d from ".toList ++ Script.stringLiteral path ++
        [';']) ⟨name, path, some name⟩
  /-- an exported name under another name -/
  | renamed {name binding : Text} (h : name ≠ binding) (path : Text) :
      Declares ("import \x7b ".toList ++ (name ++ " as ".toList ++ binding) ++ " \x7d from ".toList ++
        Script.stringLiteral path ++ [';']) ⟨binding, path, some name⟩

theorem declares_iff {s : Text} {i : ComponentImport} : Declares s i ↔ s = i.statement := by
  constructor
  · intro h
    cases h with
    | default binding path => rfl
    | named name path => exact (Script.Module.namedImport_self name path).symm
    | renamed h path => exact (Script.Module.namedImport_of_ne h path).symm
  · rintro rfl
    obtain ⟨binding, path, named⟩ := i
    cases named with
    | none => exact .default binding path
    | some name =>
      show Declares (Script.Module.namedImport name binding path) _
      by_cases h : name = binding
      · subst h
        rw [Script.Module.namedImport_self]
        exact .named name path
      · rw [Script.Module.namedImport_of_ne h]
        exact .renamed h path

end ComponentImport

/-! ## what a statement tells -/

namespace Script

/-- a quote in a sealed text stands behind a backslash -/
theorem Sealed.getLast?_of_quote {s a b : Text} (h : Sealed s) (e : s = a ++ '"' :: b) :
    a.getLast? = some '\\' := by
  induction h generalizing a with
  | nil => exact absurd e (by simp)
  | char hq _ _ ih =>
    cases a with
    | nil => exact absurd (List.cons.inj e).1 hq
    | cons d a =>
      have h := ih (List.cons.inj e).2
      rw [List.getLast?_cons, h]
      rfl
  | escape c _ ih =>
    cases a with
    | nil => exact absurd (List.cons.inj e).1 (by decide)
    | cons d a =>
      obtain ⟨rfl, e'⟩ := List.cons.inj e
      cases a with
      | nil => rfl
      | cons d a =>
        have h := ih (List.cons.inj e').2
        rw [List.getLast?_cons, List.getLast?_cons, h]
        rfl

/-- no literal ends in a space and another literal -/
theorem eq_nil_of_stringLiteral {x p q : Text} (h : stringLiteral p = x ++ stringLiteral q)
    (hx : ∀ c ∈ x.getLast?, c = ' ') : x = [] := by
  have hsealed : Sealed (p.flatMap escapeChar) :=
    sealed_flatMap (fun c => (safe_escapeChar c).isSealed) p
  cases x with
  | nil => rfl
  | cons d x =>
    obtain ⟨rfl, e⟩ := List.cons.inj h
    have e : p.flatMap escapeChar ++ ['"'] = x ++ '"' :: q.flatMap escapeChar ++ ['"'] := by
      rw [List.append_assoc]
      exact e
    have hlast := hsealed.getLast?_of_quote (List.append_cancel_right e)
    rw [List.getLast?_cons, hlast] at hx
    exact absurd (hx '\\' rfl) (by decide)

/-- the literal behind the last space that no literal holds tells two statements apart -/
theorem append_space_stringLiteral_inj {a b p q : Text}
    (h : a ++ [' '] ++ stringLiteral p = b ++ [' '] ++ stringLiteral q) : a = b ∧ p = q := by
  have hlast : ∀ {x a b : Text}, b ++ [' '] = a ++ x → ∀ c ∈ x.getLast?, c = ' ' := by
    intro x a b e c hc
    have h := congrArg List.getLast? e
    rw [List.getLast?_append, List.getLast?_append, hc] at h
    exact (Option.some.inj h).symm
  rcases List.append_eq_append_iff.1 h with ⟨x, e, hx⟩ | ⟨x, e, hx⟩
  · obtain rfl := eq_nil_of_stringLiteral hx (hlast e)
    rw [List.append_nil] at e
    refine ⟨(List.append_cancel_right e).symm, (stringLiteral_append_inj (s := []) (t := []) ?_).1⟩
    simpa using hx
  · obtain rfl := eq_nil_of_stringLiteral hx (hlast e)
    rw [List.append_nil] at e
    refine ⟨List.append_cancel_right e, (stringLiteral_append_inj (s := []) (t := []) ?_).1⟩
    simpa using hx.symm

namespace Module

/-- **The statement of a named import tells its name, its binding and its path.** -/
theorem namedImport_inj {m n a b p q : Text} (ha : ' ' ∉ a) (hb : ' ' ∉ b)
    (h : namedImport m a p = namedImport n b q) : m = n ∧ a = b ∧ p = q := by
  have hfrom : " \x7d from ".toList = " \x7d from".toList ++ [' '] := by decide +kernel
  have has : " as ".toList = " as".toList ++ [' '] := by decide +kernel
  have key : ∀ {s t : Text},
      "import \x7b ".toList ++ s ++ " \x7d from ".toList ++ stringLiteral p ++ [';'] =
        "import \x7b ".toList ++ t ++ " \x7d from ".toList ++ stringLiteral q ++ [';'] →
      s = t ∧ p = q := by
    intro s t h
    have h := List.append_cancel_right h
    rw [hfrom, ← List.append_assoc, ← List.append_assoc] at h
    obtain ⟨e, hp⟩ := append_space_stringLiteral_inj h
    exact ⟨List.append_cancel_left (List.append_cancel_right e), hp⟩
  have hspace : ∀ {x y : Text}, ' ' ∈ x ++ " as ".toList ++ y := by
    intro x y
    simp
  by_cases hm : m = a
  · subst hm
    rw [namedImport_self] at h
    by_cases hn : n = b
    · subst hn
      rw [namedImport_self] at h
      obtain ⟨e, hp⟩ := key h
      exact ⟨e, e, hp⟩
    · rw [namedImport_of_ne hn] at h
      exact absurd ((key h).1 ▸ hspace) ha
  · rw [namedImport_of_ne hm] at h
    by_cases hn : n = b
    · subst hn
      rw [namedImport_self] at h
      exact absurd ((key h).1 ▸ hspace) hb
    · rw [namedImport_of_ne hn] at h
      obtain ⟨e, hp⟩ := key h
      rw [has, ← List.append_assoc, ← List.append_assoc, List.append_assoc _ [' '],
        List.append_assoc _ [' ']] at e
      obtain ⟨e, hab⟩ := Text.append_cons_inj_of_not_mem ha hb e
      exact ⟨List.append_cancel_right e, hab, hp⟩

end Module

end Script

namespace ComponentImport

open Script

theorem space_not_mem {b : Text} (h : IsBinding b) : ' ' ∉ b :=
  fun hm => absurd (h.chars _ hm) (by decide)

/-- **The statement of an import tells the import.** -/
theorem statement_inj {i j : ComponentImport} (hi : IsBinding i.binding) (hj : IsBinding j.binding)
    (h : i.statement = j.statement) : i = j := by
  obtain ⟨a, p, m⟩ := i
  obtain ⟨b, q, n⟩ := j
  cases m with
  | none =>
    cases n with
    | none =>
      obtain ⟨e, hp⟩ := Module.importKey_defaultImport_inj hi.unspaced hj.unspaced
        (congrArg importKey h)
      obtain rfl : a = b := e
      obtain rfl : p = q := hp
      rfl
    | some n => exact absurd (congrArg importKey h) (Module.importKey_defaultImport_ne hi p n b q)
  | some m =>
    cases n with
    | none =>
      exact absurd (congrArg importKey h).symm (Module.importKey_defaultImport_ne hj q m a p)
    | some n =>
      obtain ⟨hm, hb, hp⟩ := Module.namedImport_inj (space_not_mem hi) (space_not_mem hj) h
      obtain rfl : a = b := hb
      obtain rfl : p = q := hp
      rw [hm]

end ComponentImport

/-! ## keys of named imports -/

namespace Script.Module

/-- what the key of a named import holds between its braces -/
def specifierKey (name binding : Text) : Text :=
  if name = binding then name else name ++ "as".toList ++ binding

theorem unspaced_specifierKey {name binding : Text} (hn : Unspaced name) (hb : Unspaced binding) :
    Unspaced (specifierKey name binding) := by
  have has : Unspaced "as".toList := ⟨by simp [opensString], by simp [isBlank]⟩
  unfold specifierKey
  split
  · exact hn
  · exact (hn.append has).append hb

/-- the key of a named import whose names have no blanks and no quotes -/
theorem importKey_namedImport_unspaced {name binding : Text} (hn : Unspaced name)
    (hb : Unspaced binding) (path : Text) :
    importKey (namedImport name binding path) =
      "import\x7b".toList ++ specifierKey name binding ++ "\x7dfrom".toList ++
        (stringLiteral path ++ [';']) := by
  have h1 : ∀ c ∈ "import \x7b ".toList, opensString c = false := by simp [opensString]
  have h2 : ∀ c ∈ " \x7d from ".toList, opensString c = false := by simp [opensString]
  have h3 : ∀ c ∈ " as ".toList, opensString c = false := by simp [opensString]
  have e1 : "import \x7b ".toList.filter (fun c => !isBlank c) = "import\x7b".toList := by
    simp [isBlank]
  have e2 : " \x7d from ".toList.filter (fun c => !isBlank c) = "\x7dfrom".toList := by
    simp [isBlank]
  have e3 : " as ".toList.filter (fun c => !isBlank c) = "as".toList := by simp [isBlank]
  unfold specifierKey
  by_cases h : name = binding
  · subst h
    rw [namedImport_self, List.append_assoc _ (stringLiteral path), importKey_literal
      (List.forall_mem_append.2 ⟨List.forall_mem_append.2 ⟨h1, hn.plain⟩, h2⟩),
      List.filter_append, List.filter_append, hn.filter, e1, e2, if_pos rfl]
  · have hspecifier : ∀ c ∈ name ++ " as ".toList ++ binding, opensString c = false :=
      List.forall_mem_append.2 ⟨List.forall_mem_append.2 ⟨hn.plain, h3⟩, hb.plain⟩
    rw [namedImport_of_ne h, List.append_assoc _ (stringLiteral path), importKey_literal
      (List.forall_mem_append.2 ⟨List.forall_mem_append.2 ⟨h1, hspecifier⟩, h2⟩),
      List.filter_append, List.filter_append, List.filter_append, List.filter_append, hn.filter,
      hb.filter, e1, e2, e3, if_neg h]

theorem importKey_namedImport_inj {m n a b p q : Text} (hm : Unspaced m) (hn : Unspaced n)
    (ha : Unspaced a) (hb : Unspaced b)
    (h : importKey (namedImport m a p) = importKey (namedImport n b q)) :
    specifierKey m a = specifierKey n b ∧ p = q := by
  rw [importKey_namedImport_unspaced hm ha, importKey_namedImport_unspaced hn hb] at h
  have hquote : ∀ {x : Text}, Unspaced x →
      '"' ∉ "import\x7b".toList ++ x ++ "\x7dfrom".toList := by
    intro x hx
    have := hx.quote_not_mem
    simp [this]
  obtain ⟨e, hp⟩ := append_stringLiteral_inj (hquote (unspaced_specifierKey hm ha))
    (hquote (unspaced_specifierKey hn hb)) h
  exact ⟨List.append_cancel_left (List.append_cancel_right e), hp⟩

end Script.Module

/-! ## names and bindings -/

/-- two names with their bindings, each with as many letters and digits as its binding, are told by
what is written of them without blanks -/
theorem renamed_inj {m n a b : Text} (ha : a.head?.any Char.isAlphanum = true)
    (hb : b.head?.any Char.isAlphanum = true)
    (hm : m.countP Char.isAlphanum = a.countP Char.isAlphanum)
    (hn : n.countP Char.isAlphanum = b.countP Char.isAlphanum)
    (h : m ++ "as".toList ++ a = n ++ "as".toList ++ b) : m = n ∧ a = b := by
  have hcount := congrArg (List.countP Char.isAlphanum) h
  have has : "as".toList.countP Char.isAlphanum = 2 := by decide
  simp only [List.countP_append, hm, hn, has] at hcount
  have key : ∀ {x a b : Text}, a.head?.any Char.isAlphanum = true →
      a.countP Char.isAlphanum = b.countP Char.isAlphanum → a = x ++ b → x = [] := by
    intro x a b ha hc e
    cases x with
    | nil => rfl
    | cons c x =>
      subst e
      have hc' : c.isAlphanum = true := ha
      rw [List.cons_append, List.countP_cons_of_pos hc', List.countP_append] at hc
      omega
  rcases List.append_eq_append_iff.1 h with ⟨x, e, hx⟩ | ⟨x, e, hx⟩
  · obtain rfl := key ha (by omega) hx
    rw [List.append_nil] at e
    exact ⟨(List.append_cancel_right e).symm, hx⟩
  · obtain rfl := key hb (by omega) hx
    rw [List.append_nil] at e
    exact ⟨List.append_cancel_right e, hx.symm⟩

/-- two named imports with one key between their braces are one, or one of the two is short and holds
the other -/
theorem specifierKey_eq {m n a b : Text} (ha : a.head?.any Char.isAlphanum = true)
    (hb : b.head?.any Char.isAlphanum = true)
    (hm : m.countP Char.isAlphanum = a.countP Char.isAlphanum)
    (hn : n.countP Char.isAlphanum = b.countP Char.isAlphanum)
    (h : Script.Module.specifierKey m a = Script.Module.specifierKey n b) :
    (m = n ∧ a = b) ∨ (m = a ∧ n ≠ b ∧ a = n ++ "as".toList ++ b) ∨
      (n = b ∧ m ≠ a ∧ b = m ++ "as".toList ++ a) := by
  unfold Script.Module.specifierKey at h
  by_cases hma : m = a
  · by_cases hnb : n = b
    · rw [if_pos hma, if_pos hnb] at h
      exact .inl ⟨h, by rw [← hma, ← hnb, h]⟩
    · rw [if_pos hma, if_neg hnb, hma] at h
      exact .inr (.inl ⟨hma, hnb, h⟩)
  · by_cases hnb : n = b
    · rw [if_neg hma, if_pos hnb, hnb] at h
      exact .inr (.inr ⟨hnb, hma, h.symm⟩)
    · rw [if_neg hma, if_neg hnb] at h
      exact .inl (renamed_inj ha hb hm hn h)

namespace ComponentImport

open Script

/-- the import has a spelled binding and exports no name with blanks, quotes or other letters and
digits than the binding has -/
structure Spelled (i : ComponentImport) : Prop where
  binding : IsBinding i.binding
  head : i.binding.head?.any Char.isAlphanum = true
  unspaced : ∀ name, i.named = some name → Unspaced name
  count : ∀ name, i.named = some name →
    name.countP Char.isAlphanum = i.binding.countP Char.isAlphanum

/-- two imports from one path: the first exports its binding under itself, and this binding is the
name, `as` and the binding of the second written together -/
def Glued (i j : ComponentImport) : Prop :=
  i.path = j.path ∧ i.named = some i.binding ∧
    ∃ name ∈ j.named, name ≠ j.binding ∧ i.binding = name ++ "as".toList ++ j.binding

instance (i j : ComponentImport) : Decidable (i.Glued j) :=
  inferInstanceAs (Decidable (_ ∧ _ ∧ ∃ name ∈ j.named, _))

theorem Glued.ne {i j : ComponentImport} (h : i.Glued j) : i ≠ j := by
  rintro rfl
  obtain ⟨-, hnamed, name, hnamed', hne, -⟩ := h
  rw [hnamed] at hnamed'
  exact hne (Option.some.inj hnamed').symm

theorem Glued.key_eq {i j : ComponentImport} (hi : i.Spelled) (hj : j.Spelled) (h : i.Glued j) :
    importKey i.statement = importKey j.statement := by
  obtain ⟨hpath, hnamed, name, hnamed', hne, e⟩ := h
  unfold ComponentImport.statement
  rw [hnamed, hnamed']
  dsimp only
  rw [Module.importKey_namedImport_unspaced hi.binding.unspaced hi.binding.unspaced,
    Module.importKey_namedImport_unspaced (hj.unspaced name hnamed') hj.binding.unspaced, hpath,
    Module.specifierKey, Module.specifierKey, if_pos rfl, if_neg hne, e]

/-- two imports with one key are one, or one of the two is glued in the key of the other -/
theorem eq_or_glued_of_key {i j : ComponentImport} (hi : i.Spelled) (hj : j.Spelled)
    (h : importKey i.statement = importKey j.statement) : i = j ∨ i.Glued j ∨ j.Glued i := by
  obtain ⟨a, p, m⟩ := i
  obtain ⟨b, q, n⟩ := j
  cases m with
  | none =>
    cases n with
    | none =>
      obtain ⟨e, e'⟩ := Module.importKey_defaultImport_inj hi.binding.unspaced hj.binding.unspaced h
      obtain rfl : a = b := e
      obtain rfl : p = q := e'
      exact .inl rfl
    | some n => exact absurd h (Module.importKey_defaultImport_ne hi.binding p n b q)
  | some m =>
    cases n with
    | none => exact absurd h.symm (Module.importKey_defaultImport_ne hj.binding q m a p)
    | some n =>
      obtain ⟨hkey, e⟩ := Module.importKey_namedImport_inj (hi.unspaced m rfl) (hj.unspaced n rfl)
        hi.binding.unspaced hj.binding.unspaced h
      obtain rfl : p = q := e
      rcases specifierKey_eq hi.head hj.head (hi.count m rfl) (hj.count n rfl) hkey with
        ⟨e, e'⟩ | ⟨e, hne, hglued⟩ | ⟨e, hne, hglued⟩
      · obtain rfl : m = n := e
        obtain rfl : a = b := e'
        exact .inl rfl
      · exact .inr (.inl ⟨rfl, congrArg some e, n, rfl, hne, hglued⟩)
      · exact .inr (.inr ⟨rfl, congrArg some e, m, rfl, hne, hglued⟩)

end ComponentImport

namespace ComponentRegistry

variable (g : ComponentRegistry)

/-- the definitions of a registry export names without blanks and quotes -/
def UnspacedNames : Prop :=
  ∀ d ∈ g.definitions, d.exportKind = .named → Script.Unspaced d.name

/-- an exported name is the Pascal spelling, or the name of a definition that covers the reference -/
theorem named_resolve {r : ComponentReference} {name : Text} (h : (g.resolve r).named = some name) :
    name = r.pascal ∨
      ∃ d ∈ g.definitions, d.exportKind = .named ∧ Naming.kebab d.name = r.kebab ∧ name = d.name := by
  unfold resolve at h
  split at h
  · rename_i d hd
    have hd : g.definitions.find? (·.covers r) = some d := hd
    have hcovers := List.find?_some hd
    have hmem := List.mem_of_find?_eq_some hd
    have h : exportedName d r = some name := h
    unfold exportedName at h
    split at h
    · exact nomatch h
    · rename_i hk
      split at h
      · exact .inl (Option.some.inj h).symm
      · exact .inr ⟨d, hmem, hk, eq_of_beq hcovers, (Option.some.inj h).symm⟩
  · exact nomatch h

theorem countP_binding (r : ComponentReference) :
    (g.resolve r).binding.countP Char.isAlphanum = r.pascal.countP Char.isAlphanum := by
  have h : ['_'].countP Char.isAlphanum = 0 := by decide
  rw [binding_resolve]
  unfold Script.bindingFor
  split
  · rw [List.countP_append, h, Nat.add_zero]
  · rfl

theorem head?_binding {html : Text} {r : ComponentReference} (hr : r ∈ ComponentReference.scan html) :
    (g.resolve r).binding.head?.any Char.isAlphanum = true := by
  have h := (ComponentReference.pascal_of_mem_scan hr).2
  rw [binding_resolve]
  unfold Script.bindingFor
  cases hp : r.pascal with
  | nil =>
    rw [hp] at h
    exact nomatch h
  | cons c p =>
    rw [hp] at h
    have hu : c.isUpper = true := h
    have hc : c.isAlphanum = true := by simp [Char.isAlphanum, Char.isAlpha, hu]
    split
    · exact hc
    · exact hc

theorem spelled_resolve (hg : g.UnspacedNames) {html : Text} {r : ComponentReference}
    (hr : r ∈ ComponentReference.scan html) : (g.resolve r).Spelled where
  binding := g.isBinding_of_mem_scan hr
  head := g.head?_binding hr
  unspaced := by
    intro name h
    rcases g.named_resolve h with rfl | ⟨d, hd, hk, -, rfl⟩
    · obtain ⟨n, -, -, rfl⟩ := ComponentReference.exists_of_mem_scan hr
      exact (Script.isBinding_pascal n).unspaced
    · exact hg d hd hk
  count := by
    intro name h
    rw [countP_binding]
    rcases g.named_resolve h with rfl | ⟨d, -, -, hd, rfl⟩
    · rfl
    · obtain ⟨n, -, -, rfl⟩ := ComponentReference.exists_of_mem_scan hr
      rw [← Naming.countP_pascal d.name, Naming.pascal_eq_of_kebab_eq hd]
      rfl

/-! ## no import is lost -/

/-- the module of a document declares the import of each of its references -/
def ImportsAll (html : Text) : Prop :=
  ∀ r ∈ ComponentReference.scan html,
    ∃ s ∈ (Script.Module.empty.addComponents g (ComponentReference.scan html)).imports,
      ComponentImport.Declares s (g.resolve r)

theorem importsAll_iff (html : Text) : g.ImportsAll html ↔
    ∀ q ∈ ComponentReference.scan html, ∀ r ∈ ComponentReference.scan html,
      Script.importKey (g.resolve q).statement = Script.importKey (g.resolve r).statement →
        g.resolve q = g.resolve r := by
  unfold ImportsAll
  rw [imports_kept]
  constructor
  · intro h
    have hkept : ∀ r ∈ ComponentReference.scan html, ∃ k ∈ g.kept (ComponentReference.scan html),
        g.resolve k = g.resolve r := by
      intro r hr
      obtain ⟨s, hs, hd⟩ := h r hr
      obtain ⟨k, hk, rfl⟩ := List.mem_map.1 hs
      exact ⟨k, hk, ComponentImport.statement_inj (g.isBinding_of_mem_scan (mem_of_mem_firstsBy hk))
        (g.isBinding_of_mem_scan hr) (ComponentImport.declares_iff.1 hd)⟩
    intro q hq r hr hkey
    obtain ⟨k, hk, ek⟩ := hkept q hq
    obtain ⟨l, hl, el⟩ := hkept r hr
    have e : k = l := eq_of_mem_firstsBy hk hl (by rw [ek, el]; exact hkey)
    rw [← ek, ← el, e]
  · intro h r hr
    obtain ⟨k, hk, hkey⟩ := (exists_mem_firstsBy hr : ∃ k ∈ g.kept _, _)
    refine ⟨_, List.mem_map_of_mem hk, ComponentImport.declares_iff.2 ?_⟩
    rw [h k (mem_of_mem_firstsBy hk) r hr hkey]

/-- **A module has the imports of all references exactly when no two of them with different imports
have one key.**  When no exported name has a blank or a quote, such a pair is a name that holds `as`
beside a name that is renamed. -/
theorem imported_iff (html : Text) :
    (g.ImportsAll html ↔
      ∀ q ∈ ComponentReference.scan html, ∀ r ∈ ComponentReference.scan html,
        Script.importKey (g.resolve q).statement = Script.importKey (g.resolve r).statement →
          g.resolve q = g.resolve r) ∧
      (g.UnspacedNames →
        (g.ImportsAll html ↔
          ∀ q ∈ ComponentReference.scan html, ∀ r ∈ ComponentReference.scan html,
            ¬ (g.resolve q).Glued (g.resolve r))) := by
  refine ⟨g.importsAll_iff html, fun hg => (g.importsAll_iff html).trans ?_⟩
  constructor
  · intro h q hq r hr hglued
    exact hglued.ne (h q hq r hr (hglued.key_eq (g.spelled_resolve hg hq) (g.spelled_resolve hg hr)))
  · intro h q hq r hr hkey
    rcases ComponentImport.eq_or_glued_of_key (g.spelled_resolve hg hq) (g.spelled_resolve hg hr) hkey
      with e | e | e
    · exact e
    · exact absurd e (h q hq r hr)
    · exact absurd e (h r hr q hq)

/-- a named component and a renamed one from one path are both imported -/
theorem imported_iff_kit :
    let g : ComponentRegistry :=
      ⟨[⟨"my-chart".toList, "@ui/kit".toList, .named⟩, ⟨"UI".toList, "@ui/kit".toList, .named⟩],
        "./components/".toList⟩
    g.UnspacedNames ∧ g.ImportsAll "<my-chart></my-chart><Ui></Ui>".toList := by
  intro g
  have hnames : (g.definitions.all fun d =>
      d.name.all fun c => !Script.opensString c && !isBlank c) = true := by decide +kernel
  have hg : g.UnspacedNames := by
    intro d hd _
    have hname := List.all_eq_true.1 (List.all_eq_true.1 hnames d hd)
    simp only [Bool.and_eq_true, Bool.not_eq_true'] at hname
    exact ⟨fun c hc => (hname c hc).1, fun c hc => (hname c hc).2⟩
  exact ⟨hg, ((imported_iff g _).2 hg).2 (by decide +kernel)⟩

/-- **A module can lose the import of a reference.** -/
theorem import_lost :
    let g : ComponentRegistry :=
      ⟨[⟨"u-ias-ui".toList, "@ui/kit".toList, .named⟩, ⟨"UI".toList, "@ui/kit".toList, .named⟩],
        "./components/".toList⟩
    let rs := ComponentReference.scan "<u-ias-ui></u-ias-ui><Ui></Ui>".toList
    (Script.Module.empty.addComponents g rs).imports =
        ["import \x7b UIasUi \x7d from \"@ui/kit\";".toList] ∧
      rs.map g.resolve = [⟨"UIasUi".toList, "@ui/kit".toList, some "UIasUi".toList⟩,
        ⟨"Ui".toList, "@ui/kit".toList, some "UI".toList⟩] ∧
      ¬ g.ImportsAll "<u-ias-ui></u-ias-ui><Ui></Ui>".toList := by
  intro g rs
  have himports : (Script.Module.empty.addComponents g rs).imports =
      ["import \x7b UIasUi \x7d from \"@ui/kit\";".toList] := by decide +kernel
  refine ⟨himports, by decide +kernel, fun h => ?_⟩
  have hr : (⟨"ui".toList, "Ui".toList⟩ : ComponentReference) ∈ rs := by decide +kernel
  obtain ⟨s, hs, hd⟩ := h _ hr
  have hs : s ∈ (Script.Module.empty.addComponents g rs).imports := hs
  rw [himports, List.mem_singleton, ComponentImport.declares_iff.1 hd] at hs
  exact absurd hs (by decide +kernel)

end ComponentRegistry

end MarkdownModule

import MarkdownModule.Proofs.Component.Import
import MarkdownModule.Proofs.Component.Reference
import MarkdownModule.Proofs.Jsx.Token
import MarkdownModule.Proofs.Script.Declaration

/-!
# Named imports as declarations

A named import exports a component under the name of its definition, or under its Pascal spelling
when that name has a hyphen.  A tag name may also have a dot or a colon, which no declaration has in
front of its path.

* `Script.IsImport`                       the texts that are import declarations
* `Script.isImport_namedImport_iff`       which named imports are
* `ComponentRegistry.named_import_iff`    the named imports of a document
* `ComponentRegistry.named_import_broken`  a document with a named import that is no declaration
-/

namespace MarkdownModule

/-- what stands before a member that a row does not hold goes on behind the row -/
theorem exists_of_append_eq {α : Type} {as bs cs ds : List α} {a : α} (ha : a ∉ as)
    (h : as ++ bs = cs ++ a :: ds) : ∃ es, cs = as ++ es ∧ bs = es ++ a :: ds := by
  rcases List.append_eq_append_iff.1 h with ⟨es, e, e'⟩ | ⟨es, e, e'⟩
  · exact ⟨es, e, e'⟩
  · cases es with
    | nil => exact ⟨[], by rw [e, List.append_nil, List.append_nil], e'.symm⟩
    | cons b es =>
      obtain ⟨rfl, -⟩ := List.cons.inj e'
      exact absurd (e ▸ List.mem_append_right cs List.mem_cons_self) ha

namespace Script

/-! ## names -/

/-- whether a text is an ASCII name under which a module can export; such a name may be a reserved
word -/
def isIdentifierName (s : Text) : Bool :=
  s.head?.any startsIdentifier && s.all (fun c => startsIdentifier c || c.isDigit)

theorem isIdentifierName_of_isIdentifier {s : Text} (h : isIdentifier s = true) :
    isIdentifierName s = true := (Bool.and_eq_true_iff.1 h).1

/-- a character of a tag name that no word of a script holds -/
def isStray (c : Char) : Bool := c = '-' || c = '.' || c = ':'

theorem isStray_of_isAlphanum {c : Char} (h : c.isAlphanum = true) : isStray c = false := by
  have hne : ∀ d : Char, d.isAlphanum = false → c ≠ d := by
    rintro d hd rfl
    exact absurd (h.symm.trans hd) (by decide)
  simp [isStray, hne '-' (by decide), hne '.' (by decide), hne ':' (by decide)]

/-- the stray characters of a tag name are those that no identifier has -/
theorem isStray_iff {c : Char} (h : Html.isNameChar c = true) :
    isStray c = false ↔ (startsIdentifier c || c.isDigit) = true := by
  cases ha : c.isAlphanum with
  | true =>
    refine iff_of_true (isStray_of_isAlphanum ha) ?_
    rcases Bool.or_eq_true_iff.1 ha with h | h
    · simp [startsIdentifier, h]
    · rw [h, Bool.or_true]
  | false =>
    simp only [Html.isNameChar, ha, Bool.false_or, Bool.or_eq_true, decide_eq_true_eq] at h
    rcases h with ((rfl | rfl) | rfl) | rfl <;> decide

/-- a tag name without hyphens, dots and colons is an identifier name -/
theorem isIdentifierName_iff {s : Text} (h : Jsx.IsTagName s) :
    isIdentifierName s = true ↔ ∀ c ∈ s, isStray c = false := by
  have hhead : s.head?.any startsIdentifier = true := by
    cases s with
    | nil => exact h.1
    | cons c r =>
      have hc : c.isAlpha = true := h.1
      show startsIdentifier c = true
      simp [startsIdentifier, hc]
  rw [isIdentifierName, hhead, Bool.true_and, List.all_eq_true]
  exact forall₂_congr fun c hc => (isStray_iff (h.2 c hc)).symm

/-! ## valid declarations -/

def Specifier.localName : Specifier → Word
  | same b | renamed _ b | quoted _ b => b

/-- the exported name of a specifier, unless it is a string -/
def Specifier.exportedName? : Specifier → Option Word
  | same b => some b
  | renamed n _ => some n
  | quoted _ _ => none

def Bindings.localNames : Bindings → List Word
  | all b => [b]
  | named l => l.toList.map Specifier.localName

def ImportClause.localNames : ImportClause → List Word
  | default b => [b]
  | bindings r => r.localNames
  | both b r => b :: r.localNames

/-- a declaration whose names can be used: its local names are different identifiers, and the
exported names are identifier names -/
structure ImportDeclaration.IsValid (d : ImportDeclaration) : Prop where
  identifier : ∀ c ∈ d.clause, ∀ b ∈ c.localNames, isIdentifier b.text = true
  distinct : ∀ c ∈ d.clause, (c.localNames.map Word.text).Nodup
  exported : ∀ x ∈ d.specifiers, ∀ n ∈ x.exportedName?, isIdentifierName n.text = true

/-- whether a text is an import declaration with usable names, all of them ASCII names -/
def IsImport (s : Text) : Prop := ∃ d : ImportDeclaration, d.IsValid ∧ Spelled isGap d.tokens s

/-! ## stray characters -/

theorem isStray_classes {c : Char} (h : isStray c = true) :
    isWordPart c = false ∧ isGap c = false ∧ opensString c = false := by
  simp only [isStray, Bool.or_eq_true, decide_eq_true_eq] at h
  rcases h with (rfl | rfl) | rfl <;> decide

theorem WordText.not_stray {s : Text} (h : WordText s) : ∀ c ∈ s, isStray c = false := by
  have hpart : ∀ {c : Char}, isWordPart c = true → isStray c = false := by
    intro c hc
    refine Bool.eq_false_iff.2 fun hs => ?_
    rw [(isStray_classes hs).1] at hc
    exact nomatch hc
  have hescape : ∀ {r : Text}, (∀ c ∈ r, isStray c = false) →
      ∀ c ∈ '\\' :: 'u' :: r, isStray c = false := fun hr =>
    List.forall_mem_cons.2 ⟨by decide, List.forall_mem_cons.2 ⟨by decide, hr⟩⟩
  induction h with
  | nil => exact fun _ hc => absurd hc List.not_mem_nil
  | char hc _ ih => exact List.forall_mem_cons.2 ⟨hpart (Bool.or_eq_true_iff.2 (.inl hc)), ih⟩
  | code _ _ ih => exact hescape ih
  | braced hds _ ih =>
    have hdigits := List.forall_mem_append.2
      ⟨fun d hd => hpart (isWordPart_of_isHex (hds d hd)),
        List.forall_mem_cons.2 ⟨(by decide : isStray '\x7d' = false), ih⟩⟩
    exact hescape (List.forall_mem_cons.2 ⟨by decide, hdigits⟩)

/-- a stray character in front of all strings is a mark of its own -/
theorem Spelled.exists_mark {ts : List Token} {u v : Text} {c : Char}
    (h : Spelled isGap ts (u ++ c :: v)) (hc : isStray c = true)
    (hu : ∀ d ∈ u, opensString d = false) :
    ∃ us m vs, ts = us ++ .mark m :: vs ∧ m.char = c ∧ ∀ l, Token.literal l ∉ us := by
  obtain ⟨-, hgap, hopens⟩ := isStray_classes hc
  have hnot : ∀ {gap : Text}, (∀ d ∈ gap, isGap d = true) → c ∉ gap := by
    intro gap hg hm
    rw [hg c hm] at hgap
    exact nomatch hgap
  generalize e : u ++ c :: v = s at h
  induction h generalizing u with
  | nil hg => exact absurd (e ▸ List.mem_append_right u List.mem_cons_self) (hnot hg)
  | @cons t ts gap s hg _ _ ih =>
    obtain ⟨u, rfl, hs⟩ := exists_of_append_eq (hnot hg) e.symm
    obtain ⟨-, hu⟩ := List.forall_mem_append.1 hu
    have hnext : c ∉ t.text → (∀ l, t ≠ .literal l) →
        ∃ us m vs, t :: ts = us ++ .mark m :: vs ∧ m.char = c ∧ ∀ l, Token.literal l ∉ us := by
      intro ht hl
      obtain ⟨u, rfl, hrest⟩ := exists_of_append_eq ht hs
      obtain ⟨us, m, vs, rfl, hm, hus⟩ := ih (List.forall_mem_append.1 hu).2 hrest.symm
      refine ⟨t :: us, m, vs, rfl, hm, fun l hmem => ?_⟩
      rcases List.mem_cons.1 hmem with rfl | hmem
      · exact hl l rfl
      · exact hus l hmem
    cases t with
    | word w =>
      refine hnext (fun hm => ?_) fun l => nofun
      rw [w.chars.not_stray c hm] at hc
      exact nomatch hc
    | mark m =>
      by_cases hm : m.char = c
      · exact ⟨[], m, ts, rfl, hm, fun l => List.not_mem_nil⟩
      · exact hnext (fun h => hm (List.mem_singleton.1 h).symm) fun l => nofun
    | literal l =>
      have hs : l.quote :: (l.content ++ l.quote :: s) = u ++ c :: v := l.text_append s ▸ hs
      have hquote := l.opensString_quote
      cases u with
      | nil =>
        rw [(List.cons.inj hs).1, hopens] at hquote
        exact nomatch hquote
      | cons d u =>
        rw [(List.cons.inj hs).1, hu d List.mem_cons_self] at hquote
        exact nomatch hquote

/-! ## declarations have no stray characters in front of their path -/

theorem Braced.colon_not_mem {α : Type} {f : α → List Token} (hf : ∀ a, .mark .colon ∉ f a)
    (l : Braced α) : .mark .colon ∉ l.tokens f := by
  induction l with
  | nil => exact List.not_mem_nil
  | last a => exact hf a
  | cons a l ih =>
    intro h
    rcases List.mem_append.1 h with h | h
    · exact hf a h
    · exact ih ((List.mem_cons.1 h).resolve_left nofun)

theorem Bindings.colon_not_mem (r : Bindings) : .mark .colon ∉ r.tokens := by
  cases r with
  | all b => simp [tokens]
  | named l =>
    have hspecifier : ∀ x : Specifier, .mark .colon ∉ x.tokens := by
      intro x
      cases x <;> simp [Specifier.tokens]
    have := l.colon_not_mem hspecifier
    simpa [tokens] using this

theorem colon_not_mem_clauseTokens (c : Option ImportClause) : .mark .colon ∉ clauseTokens c := by
  rcases c with _ | b | r | ⟨b, r⟩
  · exact List.not_mem_nil
  · simp [clauseTokens, ImportClause.tokens]
  · have := r.colon_not_mem
    simpa [clauseTokens, ImportClause.tokens] using this
  · have := r.colon_not_mem
    simpa [clauseTokens, ImportClause.tokens] using this

/-- **No declaration has a stray character in front of its strings.** -/
theorem ImportDeclaration.not_spelled (d : ImportDeclaration) {u v : Text} {c : Char}
    (hc : isStray c = true) (hu : ∀ d ∈ u, opensString d = false) :
    ¬ Spelled isGap d.tokens (u ++ c :: v) := by
  intro h
  obtain ⟨us, m, vs, e, hm, hus⟩ := h.exists_mark hc hu
  obtain rfl : m = .colon := by
    rw [← hm] at hc
    revert hc
    cases m <;> decide
  have hleading : .mark .colon ∉ .word .importKeyword :: clauseTokens d.clause := by
    have := colon_not_mem_clauseTokens d.clause
    simpa using this
  obtain ⟨ws, rfl, hpath⟩ := exists_of_append_eq hleading e
  cases ws with
  | nil => exact nomatch (List.cons.inj hpath).1
  | cons t ws =>
    obtain ⟨rfl, -⟩ := List.cons.inj hpath
    exact hus d.path (List.mem_append_right _ List.mem_cons_self)

/-! ## named imports -/

theorem Word.exists_of_isIdentifierName {s : Text} (h : isIdentifierName s = true) :
    ∃ w : Word, w.text = s := by
  obtain ⟨hhead, hchars⟩ := Bool.and_eq_true_iff.1 h
  refine ⟨.ofChars s (Bool.and_eq_true_iff.2 ⟨?_, List.all_eq_true.2 fun c hc => ?_⟩), rfl⟩
  · cases s with
    | nil => exact nomatch hhead
    | cons c r => rfl
  · have := List.all_eq_true.1 hchars c hc
    simp only [startsIdentifier, Bool.or_eq_true, decide_eq_true_eq] at this
    rcases this with ((ha | rfl) | rfl) | hd
    · simp [isWordChar, Char.isAlphanum, ha]
    · decide
    · decide
    · simp [isWordChar, Char.isAlphanum, hd]

theorem ImportDeclaration.isValid_ofNamed {n b : Word} (hn : isIdentifierName n.text = true)
    (hb : isIdentifier b.text = true) (path : Text) : (ofNamed n b path).IsValid := by
  obtain ⟨x, e, hlocal, hexported⟩ : ∃ x : Specifier,
      ofNamed n b path = ⟨some (.bindings (.named (.last x))), .ofPath path, none, true⟩ ∧
        x.localName.text = b.text ∧ ∀ m ∈ x.exportedName?, m.text = n.text := by
    by_cases h : n.text = b.text
    · exact ⟨.same n, by rw [ofNamed, if_pos h], h, fun m hm => by rw [← Option.some.inj hm]⟩
    · exact ⟨.renamed n b, by rw [ofNamed, if_neg h], rfl, fun m hm => by rw [← Option.some.inj hm]⟩
  rw [e]
  refine ⟨fun c hc w hw => ?_, fun c hc => ?_, fun y hy m hm => ?_⟩
  · rw [← Option.some.inj hc] at hw
    rw [List.mem_singleton.1 hw, hlocal]
    exact hb
  · rw [← Option.some.inj hc]
    exact List.nodup_singleton _
  · rw [List.mem_singleton.1 hy] at hm
    rw [hexported m hm]
    exact hn

theorem exists_namedImport_eq (name binding path : Text) :
    ∃ t, Module.namedImport name binding path = "import \x7b ".toList ++ (name ++ t) := by
  unfold Module.namedImport
  dsimp only
  split
  · exact ⟨_, by simp only [List.append_assoc]; rfl⟩
  · exact ⟨_, by simp only [List.append_assoc]; rfl⟩

/-- **A named import of a tag name is a declaration exactly when the tag name is an identifier
name.** -/
theorem isImport_namedImport_iff {name binding : Text} (hn : Jsx.IsTagName name)
    (hb : isIdentifier binding = true) (path : Text) :
    IsImport (Module.namedImport name binding path) ↔ isIdentifierName name = true := by
  constructor
  · rintro ⟨d, -, h⟩
    rw [isIdentifierName_iff hn]
    intro c hc
    refine Bool.eq_false_iff.2 fun hs => ?_
    obtain ⟨t, e⟩ := exists_namedImport_eq name binding path
    obtain ⟨u, v, rfl⟩ := List.append_of_mem hc
    have hplain : ∀ c ∈ "import \x7b ".toList ++ u, opensString c = false := by
      refine List.forall_mem_append.2 ⟨by simp [opensString], fun c hc => ?_⟩
      exact (IsBinding.unspaced ⟨hn.2⟩).plain c (List.mem_append_left _ hc)
    rw [e, List.append_assoc, List.cons_append, ← List.append_assoc] at h
    exact d.not_spelled hs hplain h
  · intro h
    obtain ⟨n, rfl⟩ := Word.exists_of_isIdentifierName h
    obtain ⟨b, rfl⟩ := Word.exists_of_isIdentifierName (isIdentifierName_of_isIdentifier hb)
    exact ⟨_, ImportDeclaration.isValid_ofNamed h hb path, (spelled_namedImport n b path).mono
      fun c hc => Bool.or_eq_true_iff.2 (.inl hc)⟩

end Script

/-! ## the named imports of a document -/

namespace ComponentRegistry

/-- the name of a definition can be exported, or is not used since it has a hyphen -/
def IsExportable (d : ComponentDefinition) : Prop :=
  '-' ∈ d.name ∨ '.' ∉ d.name ∧ ':' ∉ d.name

theorem isTagName_pascal {p : Text} (h : Naming.IsPascal p) : Jsx.IsTagName p := by
  refine ⟨?_, fun c hc => by simp [Html.isNameChar, h.chars c hc]⟩
  have hhead := h.head
  cases p with
  | nil => exact hhead
  | cons c r => exact Bool.or_eq_true_iff.2 (.inl hhead)

/-- the name that a definition exports is an identifier name exactly when it can be exported -/
theorem exportedName_iff {d : ComponentDefinition} (hd : Jsx.IsTagName d.name)
    {r : ComponentReference} (hr : Naming.IsPascal r.pascal) {name : Text}
    (h : exportedName d r = some name) :
    Jsx.IsTagName name ∧ (Script.isIdentifierName name = true ↔ IsExportable d) := by
  unfold exportedName at h
  split at h
  · exact nomatch h
  · by_cases hm : '-' ∈ d.name
    · rw [if_pos (List.contains_iff_mem.2 hm)] at h
      obtain rfl := Option.some.inj h
      have htag := isTagName_pascal hr
      refine ⟨htag, iff_of_true ((Script.isIdentifierName_iff htag).2 fun c hc => ?_) (.inl hm)⟩
      exact Script.isStray_of_isAlphanum (hr.chars c hc)
    · rw [if_neg (fun hc => hm (List.contains_iff_mem.1 hc))] at h
      obtain rfl := Option.some.inj h
      refine ⟨hd, (Script.isIdentifierName_iff hd).trans ?_⟩
      refine ⟨fun hs => .inr ⟨?_, ?_⟩, fun he c hc => ?_⟩
      · exact fun hdot => nomatch hs '.' hdot
      · exact fun hcolon => nomatch hs ':' hcolon
      · obtain ⟨hdot, hcolon⟩ := he.resolve_left hm
        have hne : ∀ e : Char, e ∉ d.name → c ≠ e := fun e he h => he (h ▸ hc)
        simp [Script.isStray, hne '-' hm, hne '.' hdot, hne ':' hcolon]

/-- **When a named import is a declaration.**  When the definitions have tag names, a named import
of a document has an identifier name, and is a declaration, exactly when the name of its definition
has a hyphen, or neither a dot nor a colon. -/
theorem named_import_iff {g : ComponentRegistry} (hg : ∀ d ∈ g.definitions, Jsx.IsTagName d.name)
    {html : Text} {r : ComponentReference} (hr : r ∈ ComponentReference.scan html) {name : Text}
    (h : (g.resolve r).named = some name) :
    ∃ d, g.find? r = some d ∧ (Script.isIdentifierName name = true ↔ IsExportable d) ∧
      (Script.IsImport (g.resolve r).statement ↔ IsExportable d) := by
  have hpascal := ComponentReference.isPascal_of_mem_scan hr
  have hbinding : Script.isIdentifier (g.resolve r).binding = true := by
    rw [binding_resolve]
    exact Script.isIdentifier_bindingFor hpascal
  have hstatement : (g.resolve r).statement =
      Script.Module.namedImport name (g.resolve r).binding (g.resolve r).path := by
    rw [ComponentImport.statement, h]
  rw [hstatement]
  cases hfind : g.find? r with
  | none =>
    rw [resolve, hfind] at h
    exact nomatch h
  | some d =>
    rw [resolve, hfind] at h
    obtain ⟨htag, hname⟩ := exportedName_iff (hg d (List.mem_of_find?_eq_some hfind)) hpascal h
    exact ⟨d, rfl, hname, (Script.isImport_namedImport_iff htag hbinding _).trans hname⟩

/-- a name with an underscore can be exported -/
theorem named_import_iff_underscore :
    let g : ComponentRegistry := ⟨[⟨"my_widget".toList, "@ui/kit".toList, .named⟩],
      "./components/".toList⟩
    let r : ComponentReference := ⟨"my-widget".toList, "MyWidget".toList⟩
    r ∈ ComponentReference.scan "<my-widget></my-widget>".toList ∧
      (g.resolve r).statement =
        "import \x7b my_widget as MyWidget \x7d from \"@ui/kit\";".toList ∧
      Script.IsImport (g.resolve r).statement := by
  intro g r
  have hg : ∀ d ∈ g.definitions, Jsx.IsTagName d.name := by
    intro d hd
    rw [List.mem_singleton.1 hd]
    exact ⟨by decide +kernel, by simp [Html.isNameChar]⟩
  have hr : r ∈ ComponentReference.scan "<my-widget></my-widget>".toList := by decide +kernel
  have hname : (g.resolve r).named = some "my_widget".toList := by decide +kernel
  have hstatement : (g.resolve r).statement =
      Script.Module.namedImport "my_widget".toList "MyWidget".toList "@ui/kit".toList := by
    decide +kernel
  refine ⟨hr, hstatement.trans (by decide +kernel), ?_⟩
  obtain ⟨d, hfind, -, himport⟩ := named_import_iff hg hr hname
  refine himport.2 ?_
  obtain rfl : (⟨"my_widget".toList, "@ui/kit".toList, .named⟩ : ComponentDefinition) = d :=
    Option.some.inj ((by decide +kernel : g.find? r = some _).symm.trans hfind)
  exact .inr ⟨by decide +kernel, by decide +kernel⟩

/-- **A named import can fail to be a declaration.** -/
theorem named_import_broken :
    let g : ComponentRegistry := ⟨[⟨"app.header".toList, "@ui/kit".toList, .named⟩],
      "./components/".toList⟩
    let r : ComponentReference := ⟨"app-header".toList, "AppHeader".toList⟩
    (∀ d ∈ g.definitions, Jsx.IsTagName d.name) ∧
      r ∈ ComponentReference.scan "<app-header></app-header>".toList ∧
      (g.resolve r).named = some "app.header".toList ∧
      Script.isIdentifierName "app.header".toList = false ∧
      (g.resolve r).statement =
        "import \x7b app.header as AppHeader \x7d from \"@ui/kit\";".toList ∧
      ¬ Script.IsImport (g.resolve r).statement := by
  intro g r
  have htag : Jsx.IsTagName "app.header".toList := ⟨by decide +kernel, by simp [Html.isNameChar]⟩
  have hname : Script.isIdentifierName "app.header".toList = false := by decide +kernel
  have hstatement : (g.resolve r).statement =
      Script.Module.namedImport "app.header".toList "AppHeader".toList "@ui/kit".toList := by
    decide +kernel
  refine ⟨fun d hd => ?_, by decide +kernel, by decide +kernel, hname,
    hstatement.trans (by decide +kernel), ?_⟩
  · rw [List.mem_singleton.1 hd]
    exact htag
  · rw [hstatement, Script.isImport_namedImport_iff htag (by decide), hname]
    exact Bool.false_ne_true

end ComponentRegistry

end MarkdownModule

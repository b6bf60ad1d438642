import Mathlib.Data.List.Induction
import MarkdownModule.Proofs.Component.Firsts

/-!
# Runs of a module under construction

A module is built by calls.  What a run of calls leaves is told by three lists: the imports, the
statements and the exports that the calls ask for, each in the order of the calls.

* `Script.Call.apply_written`     one more call
* `Script.Module.run_written`     a run of calls, from the calls before it on
* `Script.Module.run_empty`       a run from the empty module: its reports, its lines and its exports
-/

namespace MarkdownModule.Script

/-- a call that adds to a module -/
inductive Call where
  | importStatement (statement : Text)
  | importDefault (binding path : Text)
  | importNamed (name binding path : Text)
  | statement (statement : Text)
  | exportConst (name expression : Text)

inductive Call.Kind where
  | asImport
  | asStatement
  | asExport
deriving DecidableEq

namespace Call

def kind : Call → Kind
  | .importStatement _ | .importDefault _ _ | .importNamed _ _ _ => .asImport
  | .statement _ => .asStatement
  | .exportConst _ _ => .asExport

def import? : Call → Option Text
  | .importStatement s => some s
  | .importDefault binding path => some (Module.defaultImport binding path)
  | .importNamed name binding path => some (Module.namedImport name binding path)
  | .statement _ | .exportConst _ _ => none

def statement? : Call → Option Text
  | .statement s => some s
  | _ => none

/-- the name and the expression of the export that a call asks for -/
def export? : Call → Option (Text × Text)
  | .exportConst name expression => some (name, expression)
  | _ => none

/-- the module after a call, and what a call for an import reports -/
def apply (m : Module) : Call → Module × Option Bool
  | .importStatement s => ((m.addImport s).1, some (m.addImport s).2)
  | .importDefault binding path =>
    let r := m.addImport (Module.defaultImport binding path)
    (r.1, some r.2)
  | .importNamed name binding path =>
    let r := m.addImport (Module.namedImport name binding path)
    (r.1, some r.2)
  | .statement s => (m.addStatement s, none)
  | .exportConst name expression => (m.addExport name expression, none)

theorem apply_of_import? {c : Call} {s : Text} (h : c.import? = some s) (m : Module) :
    c.apply m = ((m.addImport s).1, some (m.addImport s).2) := by
  cases c with
  | importStatement t => obtain rfl := Option.some.inj h; rfl
  | importDefault binding path => obtain rfl := Option.some.inj h; rfl
  | importNamed name binding path => obtain rfl := Option.some.inj h; rfl
  | statement t => exact nomatch h
  | exportConst name expression => exact nomatch h

/-! ## what calls ask for -/

def imports (cs : List Call) : List Text := cs.filterMap import?

def statements (cs : List Call) : List Text := cs.filterMap statement?

def exports (cs : List Call) : List (Text × Text) := cs.filterMap export?

/-- the import statements whose calls report that they are new -/
def accepted (cs : List Call) (reports : List (Option Bool)) : List Text :=
  (cs.zip reports).filterMap fun c => if c.2 = some true then c.1.import? else none

end Call

/-! ## exports -/

/-- the exported names, each where it is defined first -/
def definedNames (es : List (Text × Text)) : List Text := firstsBy id (es.map Prod.fst)

def lastExpression (es : List (Text × Text)) (name : Text) : Text :=
  (es.reverse.lookup name).getD []

/-- every name once, where it is defined first, with the expression of its last definition -/
def lastExports (es : List (Text × Text)) : List (Text × Text) :=
  (definedNames es).map fun n => (n, lastExpression es n)

theorem mem_firstsBy_id {α : Type} [DecidableEq α] {a : α} {as : List α} :
    a ∈ firstsBy id as ↔ a ∈ as := by
  refine ⟨mem_of_mem_firstsBy, fun h => ?_⟩
  obtain ⟨b, hb, e⟩ : ∃ b ∈ firstsBy id as, id b = id a := exists_mem_firstsBy h
  rwa [← show b = a from e]

/-- one more member is kept when its key is new -/
theorem firstsBy_concat {α β : Type} [DecidableEq β] (key : α → β) (as : List α) (a : α) :
    firstsBy key (as ++ [a]) =
      if key a ∈ as.map key then firstsBy key as else firstsBy key as ++ [a] := by
  induction as with
  | nil => rfl
  | cons b as ih =>
    rw [List.cons_append, firstsBy_cons, ih, firstsBy_cons]
    by_cases hb : key a = key b
    · have hmem : key a ∈ (b :: as).map key := by rw [hb]; exact List.mem_cons_self
      rw [if_pos hmem]
      split
      · rfl
      · rw [List.filter_append, List.filter_cons_of_neg (by simp [hb]), List.filter_nil,
          List.append_nil]
    · have hmem : key a ∈ (b :: as).map key ↔ key a ∈ as.map key := by
        rw [List.map_cons, List.mem_cons, or_iff_right hb]
      simp only [hmem]
      split
      · rfl
      · rw [List.filter_append, List.filter_cons_of_pos (by simp [hb]), List.filter_nil,
          List.cons_append]

theorem nodup_definedNames (es : List (Text × Text)) : (definedNames es).Nodup := by
  have h := nodup_firstsBy id (es.map Prod.fst)
  rwa [List.map_id] at h

theorem lastExpression_concat (es : List (Text × Text)) (e : Text × Text) (name : Text) :
    lastExpression (es ++ [e]) name = if name = e.1 then e.2 else lastExpression es name := by
  unfold lastExpression
  rw [List.reverse_append, List.reverse_singleton, List.singleton_append, List.lookup_cons]
  by_cases h : name = e.1
  · rw [if_pos h, beq_iff_eq.2 h]
    rfl
  · rw [if_neg h, beq_eq_false_iff_ne.2 h]

/-- a name that is not exported yet comes last -/
theorem Module.putExport_of_not_mem {name : Text} {es : List (Text × Text)} (expression : Text)
    (h : name ∉ es.map Prod.fst) :
    putExport name expression es = es ++ [(name, expression)] := by
  induction es with
  | nil => rfl
  | cons e es ih =>
    rw [List.map_cons, List.mem_cons, not_or] at h
    obtain ⟨he, hes⟩ := h
    rw [putExport, if_neg fun e' => he e'.symm, ih hes, List.cons_append]

/-- a name that is exported keeps its place -/
theorem Module.putExport_of_mem {name : Text} {ns : List Text} (hd : ns.Nodup) (h : name ∈ ns)
    (f : Text → Text) (expression : Text) :
    putExport name expression (ns.map fun n => (n, f n)) =
      ns.map fun n => (n, if n = name then expression else f n) := by
  induction ns with
  | nil => exact absurd h List.not_mem_nil
  | cons n ns ih =>
    obtain ⟨hn, hns⟩ := List.nodup_cons.1 hd
    rw [List.map_cons, putExport, List.map_cons]
    by_cases hname : n = name
    · rw [if_pos hname, if_pos hname]
      refine congrArg _ (List.map_congr_left fun k hk => ?_)
      rw [if_neg fun e => hn (by rw [hname, ← e]; exact hk)]
    · rw [if_neg hname, if_neg hname, ih hns ((List.mem_cons.1 h).resolve_left (Ne.symm hname))]

theorem names_lastExports (es : List (Text × Text)) :
    (lastExports es).map Prod.fst = definedNames es := by
  unfold lastExports
  rw [List.map_map]
  exact List.map_id _

/-- one more definition -/
theorem lastExports_concat (es : List (Text × Text)) (e : Text × Text) :
    lastExports (es ++ [e]) = Module.putExport e.1 e.2 (lastExports es) := by
  have hmap : lastExports (es ++ [e]) = (definedNames (es ++ [e])).map fun n =>
      (n, if n = e.1 then e.2 else lastExpression es n) :=
    List.map_congr_left fun n _ => by rw [lastExpression_concat]
  have hnames : definedNames (es ++ [e]) =
      if e.1 ∈ definedNames es then definedNames es else definedNames es ++ [e.1] := by
    unfold definedNames
    rw [List.map_append, List.map_singleton, firstsBy_concat, List.map_id, id_eq]
    by_cases h : e.1 ∈ es.map Prod.fst
    · rw [if_pos h, if_pos (mem_firstsBy_id.2 h)]
    · rw [if_neg h, if_neg fun h' => h (mem_firstsBy_id.1 h')]
  rw [hmap, hnames]
  split
  · next h =>
    unfold lastExports
    rw [Module.putExport_of_mem (nodup_definedNames es) h]
  · next h =>
    have hnew : e.1 ∉ (lastExports es).map Prod.fst := by rw [names_lastExports]; exact h
    rw [Module.putExport_of_not_mem _ hnew, List.map_append, List.map_singleton, if_pos rfl]
    refine congrArg (· ++ _) (List.map_congr_left fun n hn => ?_)
    rw [if_neg (by rintro rfl; exact h hn)]

/-! ## one call -/

/-- the module that calls write -/
def Module.written (cs : List Call) : Module where
  imports := firstsBy importKey (Call.imports cs)
  statements := Call.statements cs
  exports := lastExports (Call.exports cs)

namespace Call

/-- what a call reports after other calls: whether the key of its import is new -/
def report (before : List Call) (c : Call) : Option Bool :=
  c.import?.map fun s => !((imports before).map importKey).contains (importKey s)

theorem imports_concat (cs : List Call) (c : Call) :
    imports (cs ++ [c]) = imports cs ++ c.import?.toList := by
  unfold imports
  rw [List.filterMap_append]
  cases c <;> rfl

theorem statements_concat (cs : List Call) (c : Call) :
    statements (cs ++ [c]) = statements cs ++ c.statement?.toList := by
  unfold statements
  rw [List.filterMap_append]
  cases c <;> rfl

theorem exports_concat (cs : List Call) (c : Call) :
    exports (cs ++ [c]) = exports cs ++ c.export?.toList := by
  unfold exports
  rw [List.filterMap_append]
  cases c <;> rfl

theorem hasImport_written (cs : List Call) (s : Text) :
    (Module.written cs).hasImport s = true ↔ importKey s ∈ (imports cs).map importKey := by
  rw [Module.hasImport_iff, List.mem_map, List.mem_map]
  constructor
  · rintro ⟨t, ht, e⟩
    exact ⟨t, mem_of_mem_firstsBy ht, e⟩
  · rintro ⟨t, ht, e⟩
    obtain ⟨u, hu, e'⟩ : ∃ u ∈ firstsBy importKey (imports cs), importKey u = importKey t :=
      exists_mem_firstsBy ht
    exact ⟨u, hu, e'.trans e⟩

/-- one more import, in any of its forms -/
theorem apply_import_written {c : Call} {s : Text} (cs : List Call) (hi : c.import? = some s)
    (hs : c.statement? = none) (he : c.export? = none) :
    c.apply (Module.written cs) = (Module.written (cs ++ [c]), report cs c) := by
  have hwritten : Module.written (cs ++ [c]) =
      { Module.written cs with imports := firstsBy importKey (imports cs ++ [s]) } := by
    unfold Module.written
    rw [imports_concat, statements_concat, exports_concat, hi, hs, he]
    simp
  rw [apply_of_import? hi, hwritten, firstsBy_concat, report, hi, Option.map_some, Module.addImport]
  by_cases h : importKey s ∈ (imports cs).map importKey
  · rw [if_pos ((hasImport_written cs s).2 h), if_pos h, List.contains_iff_mem.2 h]
    rfl
  · rw [if_neg fun h' => h ((hasImport_written cs s).1 h'), if_neg h,
      Bool.eq_false_iff.2 (mt List.contains_iff_mem.1 h)]
    rfl

/-- **One more call, after the calls that wrote the module.** -/
theorem apply_written (cs : List Call) (c : Call) :
    c.apply (Module.written cs) = (Module.written (cs ++ [c]), report cs c) := by
  cases c with
  | importStatement s => exact apply_import_written cs rfl rfl rfl
  | importDefault binding path => exact apply_import_written cs rfl rfl rfl
  | importNamed name binding path => exact apply_import_written cs rfl rfl rfl
  | statement s =>
    unfold Module.written
    rw [imports_concat, statements_concat, exports_concat]
    simp [apply, report, import?, statement?, export?, Module.addStatement]
  | exportConst name expression =>
    unfold Module.written
    rw [imports_concat, statements_concat, exports_concat]
    simp [apply, report, import?, statement?, export?, Module.addExport, lastExports_concat]

end Call

/-! ## runs -/

namespace Module

def run (m : Module) : List Call → Module × List (Option Bool)
  | [] => (m, [])
  | c :: cs =>
    let r := c.apply m
    let t := r.1.run cs
    (t.1, r.2 :: t.2)

theorem run_append (m : Module) (cs ds : List Call) :
    m.run (cs ++ ds) = (((m.run cs).1.run ds).1, (m.run cs).2 ++ ((m.run cs).1.run ds).2) := by
  induction cs generalizing m with
  | nil => rfl
  | cons c cs ih =>
    rw [List.cons_append, run, run, ih]
    rfl

theorem run_concat (m : Module) (cs : List Call) (c : Call) :
    m.run (cs ++ [c]) =
      ((c.apply (m.run cs).1).1, (m.run cs).2 ++ [(c.apply (m.run cs).1).2]) := by
  rw [run_append]
  rfl

theorem length_reports (m : Module) (cs : List Call) : (m.run cs).2.length = cs.length := by
  induction cs generalizing m with
  | nil => rfl
  | cons c cs ih => rw [run, List.length_cons, List.length_cons, ih]

/-- **A run writes the module of its calls**, by one step after the other. -/
theorem run_written (cs : List Call) : (empty.run cs).1 = written cs := by
  induction cs using List.reverseRecOn with
  | nil => rfl
  | append_singleton cs c ih => rw [run_concat, ih, Call.apply_written]

/-- what one call of a run reports -/
theorem reports_run (before after : List Call) (c : Call) :
    (empty.run (before ++ c :: after)).2[before.length]? = some (Call.report before c) := by
  rw [run_append, run, run_written, Call.apply_written]
  dsimp only
  rw [List.getElem?_append_right (by rw [length_reports]), length_reports, Nat.sub_self]
  rfl

/-- the imports of a run are those whose calls report that they are new -/
theorem accepted_run (cs : List Call) :
    Call.accepted cs (empty.run cs).2 = firstsBy importKey (Call.imports cs) := by
  induction cs using List.reverseRecOn with
  | nil => rfl
  | append_singleton cs c ih =>
    have hreports : (empty.run (cs ++ [c])).2 = (empty.run cs).2 ++ [Call.report cs c] := by
      rw [run_concat, run_written, Call.apply_written]
    have hsplit : Call.accepted (cs ++ [c]) ((empty.run cs).2 ++ [Call.report cs c]) =
        Call.accepted cs (empty.run cs).2 ++ Call.accepted [c] [Call.report cs c] := by
      unfold Call.accepted
      rw [List.zip_append (length_reports empty cs).symm, List.filterMap_append]
    rw [hreports, hsplit, ih, Call.imports_concat, Call.report]
    cases hi : c.import? with
    | none => simp [Call.accepted]
    | some s =>
      rw [Option.toList_some, firstsBy_concat, Option.map_some]
      by_cases h : importKey s ∈ (Call.imports cs).map importKey
      · rw [if_pos h, List.contains_iff_mem.2 h]
        exact List.append_nil _
      · rw [if_neg h, Bool.eq_false_iff.2 (mt List.contains_iff_mem.1 h)]
        simp [Call.accepted, hi]

/-! ## repeated imports -/

theorem hasImport_addImport {m : Module} {t : Text} (s : Text) (h : m.hasImport t = true) :
    (m.addImport s).1.hasImport t = true := by
  rw [hasImport_iff] at h ⊢
  rw [imports_addImport]
  split
  · exact h
  · rw [List.map_append]
    exact List.mem_append_left _ h

theorem hasImport_addImport_self (m : Module) (s : Text) : (m.addImport s).1.hasImport s = true := by
  rw [hasImport_iff, imports_addImport]
  split
  · next h => exact (hasImport_iff m s).1 h
  · rw [List.map_append]
    exact List.mem_append_right _ List.mem_cons_self

theorem addImport_of_hasImport {m : Module} {s : Text} (h : m.hasImport s = true) :
    m.addImport s = (m, false) := if_pos h

/-- no call takes an import away -/
theorem hasImport_apply {m : Module} {t : Text} (c : Call) (h : m.hasImport t = true) :
    (c.apply m).1.hasImport t = true := by
  cases c with
  | importStatement s => exact hasImport_addImport s h
  | importDefault binding path => exact hasImport_addImport _ h
  | importNamed name binding path => exact hasImport_addImport _ h
  | statement s => exact h
  | exportConst name expression => exact h

theorem hasImport_run {m : Module} {t : Text} (cs : List Call) (h : m.hasImport t = true) :
    (m.run cs).1.hasImport t = true := by
  induction cs generalizing m with
  | nil => exact h
  | cons c cs ih => exact ih (hasImport_apply c h)

theorem addComponents_cons (m : Module) (g : ComponentRegistry) (r : ComponentReference)
    (rs : List ComponentReference) :
    m.addComponents g (r :: rs) = (m.addImport (g.resolve r).statement).1.addComponents g rs := rfl

/-- no component takes an import away -/
theorem hasImport_addComponents_of_hasImport {m : Module} {t : Text} (g : ComponentRegistry)
    (rs : List ComponentReference) (h : m.hasImport t = true) :
    (m.addComponents g rs).hasImport t = true := by
  induction rs generalizing m with
  | nil => exact h
  | cons r rs ih => exact ih (hasImport_addImport _ h)

/-- every component is imported -/
theorem hasImport_addComponents (m : Module) (g : ComponentRegistry) {r : ComponentReference}
    {rs : List ComponentReference} (hr : r ∈ rs) :
    (m.addComponents g rs).hasImport (g.resolve r).statement = true := by
  induction rs generalizing m with
  | nil => exact absurd hr List.not_mem_nil
  | cons q rs ih =>
    rw [addComponents_cons]
    rcases List.mem_cons.1 hr with rfl | hr
    · exact hasImport_addComponents_of_hasImport g rs (hasImport_addImport_self m _)
    · exact ih _ hr

/-- components that are imported already add nothing -/
theorem addComponents_of_hasImport {m : Module} (g : ComponentRegistry)
    {rs : List ComponentReference} (h : ∀ r ∈ rs, m.hasImport (g.resolve r).statement = true) :
    m.addComponents g rs = m := by
  induction rs with
  | nil => rfl
  | cons r rs ih =>
    obtain ⟨hr, hrs⟩ := List.forall_mem_cons.1 h
    rw [addComponents_cons, addImport_of_hasImport hr, ih hrs]

/-! ## the whole run -/

theorem hasImport_of_mem {cs : List Call} {c : Call} {s : Text} (hc : c ∈ cs)
    (hs : c.import? = some s) : (written cs).hasImport s = true :=
  (Call.hasImport_written cs s).2 (List.mem_map_of_mem (List.mem_filterMap.2 ⟨c, hc, hs⟩))

theorem code_written (cs : List Call) :
    (written cs).code =
      (firstsBy importKey (Call.imports cs) ++ Call.statements cs ++
        (definedNames (Call.exports cs)).map fun n => "export const ".toList ++ n ++
          " = ".toList ++ lastExpression (Call.exports cs) n ++ ";".toList).flatMap
        (· ++ ['\n']) := by
  unfold code lines written lastExports
  rw [List.map_map]
  rfl

theorem written_congr {cs ds : List Call} (hi : Call.imports cs = Call.imports ds)
    (hs : Call.statements cs = Call.statements ds) (he : Call.exports cs = Call.exports ds) :
    written cs = written ds := by
  unfold written
  rw [hi, hs, he]

/-- two calls of different kinds may change places -/
theorem written_swap (before after : List Call) {a b : Call} (h : a.kind ≠ b.kind) :
    written (before ++ a :: b :: after) = written (before ++ b :: a :: after) := by
  have hsplit : ∀ {α : Type} (f : Call → Option α), (f a = none ∨ f b = none) →
      (before ++ a :: b :: after).filterMap f = (before ++ b :: a :: after).filterMap f := by
    intro α f hf
    simp only [List.filterMap_append, List.filterMap_cons]
    rcases hf with hf | hf <;> rw [hf]
  refine written_congr (hsplit _ ?_) (hsplit _ ?_) (hsplit _ ?_)
  all_goals
    revert h
    cases a <;> cases b <;> simp [Call.kind, Call.import?, Call.statement?, Call.export?]

/-- **What a run of calls leaves.**  An import is new exactly when no earlier one has its key; the
module has the new imports, then the statements, then every exported name once, where it was defined
first and as it was defined last.  Calls of different kinds do not meet, and what is imported already
is not imported again. -/
theorem run_empty (cs : List Call) :
    (∀ before c after, cs = before ++ c :: after →
        (empty.run cs).2[before.length]? = some (c.import?.map fun s =>
          !((Call.imports before).map importKey).contains (importKey s))) ∧
      (empty.run cs).1.code =
        (Call.accepted cs (empty.run cs).2 ++ Call.statements cs ++
          (definedNames (Call.exports cs)).map fun n => "export const ".toList ++ n ++
            " = ".toList ++ lastExpression (Call.exports cs) n ++ ";".toList).flatMap
          (· ++ ['\n']) ∧
      (empty.run cs).1.exportNames = definedNames (Call.exports cs) ∧
      (definedNames (Call.exports cs)).Nodup ∧
      (∀ ds, Call.imports cs = Call.imports ds → Call.statements cs = Call.statements ds →
        Call.exports cs = Call.exports ds → (empty.run cs).1 = (empty.run ds).1) ∧
      (∀ before a b after, cs = before ++ a :: b :: after → a.kind ≠ b.kind →
        (empty.run cs).1 = (empty.run (before ++ b :: a :: after)).1) ∧
      (∀ c ∈ cs, ∀ s, c.import? = some s → c.apply (empty.run cs).1 = ((empty.run cs).1, some false)) ∧
      ∀ g rs ds, let m := ((empty.run cs).1.addComponents g rs).run ds
        m.1.addComponents g rs = m.1 := by
  refine ⟨?_, ?_, ?_, nodup_definedNames _, ?_, ?_, ?_, ?_⟩
  · rintro before c after rfl
    exact reports_run before after c
  · rw [run_written, accepted_run, code_written]
  · rw [run_written]
    exact names_lastExports _
  · intro ds hi hs he
    rw [run_written, run_written, written_congr hi hs he]
  · rintro before a b after rfl hkind
    rw [run_written, run_written, written_swap before after hkind]
  · intro c hc s hs
    rw [run_written, Call.apply_of_import? hs, addImport_of_hasImport (hasImport_of_mem hc hs)]
  · intro g rs ds m
    refine addComponents_of_hasImport g fun r hr => ?_
    exact hasImport_run ds (hasImport_addComponents _ g hr)

/-- An import asked for again with other white space is reported as not new, and the export between
the two may as well come first. -/
theorem run_empty_spaced :
    let first : Call := .importStatement "import a from 'a'".toList
    let defined : Call := .exportConst "x".toList "1".toList
    let again : Call := .importStatement " import  a from 'a'\n".toList
    (empty.run [first, defined, again]).2[2]? = some (some false) ∧
      (empty.run [first, defined, again]).1 = (empty.run [defined, first, again]).1 := by
  intro first defined again
  obtain ⟨reports, -, -, -, -, commutes, -⟩ := run_empty [first, defined, again]
  have known : ((Call.imports [first, defined]).map importKey).contains
      (importKey " import  a from 'a'\n".toList) = true := by
    decide +kernel
  constructor
  · have reported := reports [first, defined] again [] rfl
    rwa [show again.import? = some " import  a from 'a'\n".toList from rfl, Option.map_some, known]
      at reported
  · exact commutes [] first defined [again] rfl (by decide)

end Module

end MarkdownModule.Script

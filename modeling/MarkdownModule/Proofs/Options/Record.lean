import Mathlib.Data.List.Perm.Basic
import MarkdownModule.Options.Record
import MarkdownModule.Proofs.Json.Variation

/-!
# Records are read from every variation

A record finds its fields in any order, without the fields that it does not have, and reads a field
that is left out as it reads null.

* `Json.Reads`               every variation of a value is read in one way
* `Json.Record.read?_varies` the fields of a record, in any variation of its object
* `Json.Record.Holds.field?` the value of a field
-/

namespace MarkdownModule.Json

/-- every variation of the value is read as this -/
def Reads {α : Type} (read : Form → Option α) (v : Value) (a : α) : Prop :=
  ∀ f, Varies v f → read f = some a

/-! ## readers of values -/

theorem reads_text (s : Text) : Reads Form.text? (.string s) s := by
  intro f hf
  cases hf with
  | string h => exact h

theorem reads_bool (b : Bool) : Reads Form.bool? (.bool b) b := by
  intro f hf
  cases hf with
  | bool => rfl

theorem Varies.ne_null {v : Value} {f : Form} (h : Varies v f) (hv : v ≠ .null) : f ≠ .null := by
  rintro rfl
  cases h with
  | null => exact hv rfl

section
variable {α : Type} {read : Form → Option α}

/-- null is read as nothing, and any other value as the reader reads it -/
theorem reads_optional {w : α → Value} {o : Option α}
    (h : ∀ a ∈ o, w a ≠ .null ∧ Reads read (w a) a) :
    Reads (Form.optional? read) ((o.map w).getD .null) o := by
  intro f hf
  cases o with
  | none =>
    cases hf with
    | null => rfl
  | some a =>
    obtain ⟨hne, hread⟩ := h a rfl
    have hf : Varies (w a) f := hf
    have hnull := hf.ne_null hne
    rw [Form.optional?]
    · rw [hread f hf]
      rfl
    · exact hnull

theorem reads_list {w : α → Value} {as : List α} (h : ∀ a ∈ as, Reads read (w a) a) :
    Reads (Form.list? read) (.array (as.map w)) as := by
  have hitems : ∀ (as : List α) (fs : List Form), (∀ a ∈ as, Reads read (w a) a) →
      VariesItems (as.map w) fs → fs.mapM read = some as := by
    intro as
    induction as with
    | nil =>
      intro fs _ hfs
      cases hfs with
      | nil => rfl
    | cons a as ih =>
      intro fs h hfs
      obtain ⟨ha, has⟩ := List.forall_mem_cons.1 h
      cases hfs with
      | cons hf hfs =>
        rw [List.mapM_cons, ha _ hf, ih _ has hfs]
        rfl
  intro f hf
  cases hf with
  | array hfs => exact hitems as _ h hfs

end

/-! ## the fields of a record -/

namespace Record

/-- a member whose key is the name of a field -/
def pick (names : List String) (m : List StringUnit × Form) : Option (String × Form) :=
  (unitsText? m.1).bind fun key =>
    if names.contains (String.ofList key) then some (String.ofList key, m.2) else none

/-- the selected fields, when all keys are texts -/
theorem select?_eq (names : List String) {ms : List (List StringUnit × Form)}
    (h : ∀ m ∈ ms, ∃ key, unitsText? m.1 = some key) :
    select? names ms = some (ms.filterMap (pick names)) := by
  induction ms with
  | nil => rfl
  | cons m ms ih =>
    obtain ⟨⟨key, hkey⟩, hms⟩ := List.forall_mem_cons.1 h
    obtain ⟨k, v⟩ := m
    have hkey : unitsText? k = some key := hkey
    rw [select?, hkey, ih hms, List.filterMap_cons, pick, hkey]
    dsimp only [Option.bind_eq_bind, Option.bind_some]
    split
    · rfl
    · rfl

/-- what a record holds for a field: a variation of its value, or nothing for null -/
def Holds (r : Record) (name : String) (v : Value) : Prop :=
  (∃ f, r.lookup name = some f ∧ Varies v f) ∨ (r.lookup name = none ∧ v = .null)

section
variable {α : Type} {r : Record} {name : String} {v : Value} {read : Form → Option α} {a : α}

theorem Holds.field? (h : r.Holds name v) (hread : Reads read v a) (default : α)
    (hdefault : v = .null → default = a) : r.field? name read default = some a := by
  unfold Record.field?
  rcases h with ⟨f, hl, hf⟩ | ⟨hl, hv⟩
  · rw [hl]
    exact hread f hf
  · rw [hl]
    exact congrArg some (hdefault hv)

theorem Holds.need? (h : r.Holds name v) (hread : Reads read v a) (hv : v ≠ .null) :
    r.need? name read = some a := by
  unfold Record.need?
  rcases h with ⟨f, hl, hf⟩ | ⟨-, hv'⟩
  · rw [hl]
    exact hread f hf
  · exact absurd hv' hv

/-- a field that may be null is read, whether it is there or not -/
theorem Holds.optional {β : Type} {w : β → Value} {o : Option β} {read : Form → Option β}
    (h : r.Holds name ((o.map w).getD .null)) (hw : ∀ b ∈ o, w b ≠ .null ∧ Reads read (w b) b) :
    r.field? name (Form.optional? read) none = some o := by
  refine h.field? (reads_optional hw) none fun hv => ?_
  cases o with
  | none => rfl
  | some b => exact absurd hv (hw b rfl).1

end

/-- the keys of an object with these fields -/
theorem keys_fields (fields : List (String × Value)) :
    (fields.map fun p => (p.1.toList, p.2)).map Prod.fst =
      (fields.map Prod.fst).map String.toList := by
  rw [List.map_map, List.map_map]
  rfl

/-- the fields that are picked from the known members, in their order -/
theorem pick_known {names : List String} {fields : List (String × Value)}
    (hsub : ∀ p ∈ fields, p.1 ∈ names) (hnodup : (fields.map Prod.fst).Nodup)
    {known : List (List StringUnit × Form)}
    (h : VariesFields (fields.map fun p => (p.1.toList, p.2)) known) :
    (∀ m ∈ known, ∃ key, unitsText? m.1 = some key) ∧
      ((known.filterMap (pick names)).map Prod.fst).Sublist (fields.map Prod.fst) ∧
      ∀ p ∈ fields, (∃ f, (p.1, f) ∈ known.filterMap (pick names) ∧ Varies p.2 f) ∨
        (p.1 ∉ (known.filterMap (pick names)).map Prod.fst ∧ p.2 = .null) := by
  induction fields generalizing known with
  | nil =>
    cases h with
    | nil => exact ⟨fun m hm => absurd hm List.not_mem_nil, List.Sublist.refl _,
        fun p hp => absurd hp List.not_mem_nil⟩
  | cons p fields ih =>
    obtain ⟨name, v⟩ := p
    obtain ⟨hname, hnames⟩ := List.forall_mem_cons.1 hsub
    rw [List.map_cons, List.nodup_cons] at hnodup
    obtain ⟨hnew, hnodup⟩ := hnodup
    rw [List.map_cons] at h
    cases h with
    | @kept _ us _ f _ known hus hf hs =>
      have hpick : pick names (us, f) = some (name, f) := by
        unfold pick
        rw [hus, Option.bind_some, String.ofList_toList, if_pos (List.contains_iff_mem.2 hname)]
      obtain ⟨htext, hkeys, hfields⟩ := ih hnames hnodup hs
      rw [List.filterMap_cons_some hpick]
      refine ⟨List.forall_mem_cons.2 ⟨⟨_, hus⟩, htext⟩, hkeys.cons_cons _, ?_⟩
      refine List.forall_mem_cons.2 ⟨.inl ⟨f, List.mem_cons_self, hf⟩, fun p hp => ?_⟩
      rcases hfields p hp with ⟨g, hg, hv⟩ | ⟨hno, hv⟩
      · exact .inl ⟨g, List.mem_cons_of_mem _ hg, hv⟩
      · refine .inr ⟨?_, hv⟩
        rw [List.map_cons, List.mem_cons, not_or]
        exact ⟨fun e => hnew (List.mem_map.2 ⟨p, hp, e⟩), hno⟩
    | leftOut hs =>
      obtain ⟨htext, hkeys, hfields⟩ := ih hnames hnodup hs
      refine ⟨htext, hkeys.cons _, ?_⟩
      exact List.forall_mem_cons.2 ⟨.inr ⟨fun hm => hnew (hkeys.subset hm), rfl⟩, hfields⟩

/-- no unknown member is picked -/
theorem pick_unknown {fields : List (String × Value)} {m : List StringUnit × Form}
    (h : ∃ key, unitsText? m.1 = some key ∧
      key ∉ (fields.map fun p => (p.1.toList, p.2)).map Prod.fst) :
    pick (fields.map Prod.fst) m = none := by
  obtain ⟨key, hkey, hnew⟩ := h
  have hcontains : ¬ (fields.map Prod.fst).contains (String.ofList key) = true := by
    intro hc
    refine hnew ?_
    rw [keys_fields]
    exact List.mem_map.2 ⟨_, List.contains_iff_mem.1 hc, String.toList_ofList⟩
  unfold pick
  rw [hkey, Option.bind_some, if_neg hcontains]

/-- a key that is given once is found -/
theorem lookup_of_mem {r : Record} (hr : (r.map Prod.fst).Nodup) {name : String} {f : Form}
    (h : (name, f) ∈ r) : r.lookup name = some f := by
  induction r with
  | nil => exact absurd h List.not_mem_nil
  | cons p r ih =>
    obtain ⟨n, g⟩ := p
    rw [List.map_cons, List.nodup_cons] at hr
    obtain ⟨hnew, hr⟩ := hr
    rcases List.mem_cons.1 h with e | hmem
    · obtain ⟨rfl, rfl⟩ := Prod.mk.inj e
      exact List.lookup_cons_self
    · have hne : (name == n) = false := by
        refine beq_eq_false_iff_ne.2 ?_
        rintro rfl
        exact hnew (List.mem_map.2 ⟨_, hmem, rfl⟩)
      rw [List.lookup_cons, hne]
      exact ih hr hmem

theorem lookup_of_not_mem {r : Record} {name : String} (h : name ∉ r.map Prod.fst) :
    r.lookup name = none := by
  refine List.lookup_eq_none_iff.2 fun p hp => bne_iff_ne.2 ?_
  rintro rfl
  exact h (List.mem_map_of_mem hp)

/-- **A record has its fields in every variation of its object.** -/
theorem read?_varies {fields : List (String × Value)} {f : Form}
    (hf : Varies (.ofFields fields) f) (names : List String) (hnames : fields.map Prod.fst = names)
    (hnodup : names.Nodup) : ∃ r, read? names f = some r ∧ ∀ p ∈ fields, Holds r p.1 p.2 := by
  subst hnames
  unfold Value.ofFields at hf
  cases hf with
  | @object _ members known unknown hknown hunknown order =>
    have hsub : ∀ p ∈ fields, p.1 ∈ fields.map Prod.fst := fun p hp => List.mem_map_of_mem hp
    obtain ⟨htext, hkeys, hfields⟩ := pick_known hsub hnodup hknown
    have hnone : unknown.filterMap (pick (fields.map Prod.fst)) = [] :=
      List.filterMap_eq_nil_iff.2 fun m hm => pick_unknown (hunknown m hm)
    have hperm : (members.filterMap (pick (fields.map Prod.fst))).Perm
        (known.filterMap (pick (fields.map Prod.fst))) := by
      have := order.filterMap (pick (fields.map Prod.fst))
      rwa [List.filterMap_append, hnone, List.append_nil] at this
    have hall : ∀ m ∈ members, ∃ key, unitsText? m.1 = some key := by
      intro m hm
      rcases List.mem_append.1 (order.subset hm) with hm | hm
      · exact htext m hm
      · obtain ⟨key, hkey, -⟩ := hunknown m hm
        exact ⟨key, hkey⟩
    have hunique : ((members.filterMap (pick (fields.map Prod.fst))).map Prod.fst).Nodup :=
      (hperm.map Prod.fst).nodup_iff.2 (hkeys.nodup hnodup)
    refine ⟨members.filterMap (pick (fields.map Prod.fst)), ?_, fun p hp => ?_⟩
    · rw [read?, select?_eq _ hall]
      exact if_pos hunique
    · rcases hfields p hp with ⟨g, hg, hv⟩ | ⟨hno, hv⟩
      · exact .inl ⟨g, lookup_of_mem hunique (hperm.mem_iff.2 hg), hv⟩
      · refine .inr ⟨lookup_of_not_mem fun hm => hno ?_, hv⟩
        exact (hperm.map Prod.fst).mem_iff.1 hm

end Record

end MarkdownModule.Json

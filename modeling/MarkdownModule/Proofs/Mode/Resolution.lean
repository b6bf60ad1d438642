import MarkdownModule.Mode
import MarkdownModule.Proofs.Text.Trim

/-!
# The modes that tokens name

A list of tokens resolves to the modes that its tokens name, or to `html` when they name none.  So
nothing counts but which modes are named: not the order of the tokens, not how often one stands there,
not the tokens that name nothing, and not how a token is spelled.

* `Mode.Names`                the token of a mode, in any letter case and between blanks
* `Mode.ofToken?_eq_some_iff` a token is read as the mode that it names
* `ModeSet.Reworded`          lists of tokens that are the same but for what does not count
* `ModeSet.resolve_named`     what a list of tokens resolves to
-/

namespace MarkdownModule

/-! ## tokens -/

namespace Mode

/-- the token of the mode, in any letter case and between blanks -/
def Names (m : Mode) (t : Text) : Prop :=
  ∃ before word after, t = before ++ word ++ after ∧ Text.IsSpacing before ∧ Text.IsSpacing after ∧
    Text.lower word = m.token

theorem isTight_token (m : Mode) : Text.IsTight m.token where
  head := by
    intro c hc
    cases m <;> cases hc <;> decide
  last := by
    intro c hc
    cases m <;> cases hc <;> decide

theorem lower_token (m : Mode) : Text.lower m.token = m.token := by
  cases m <;> decide

theorem token_injective {m n : Mode} (h : m.token = n.token) : m = n := by
  revert h
  cases m <;> cases n <;> decide

theorem names_iff_trim {m : Mode} {t : Text} : m.Names t ↔ Text.lower (Text.trim t) = m.token := by
  constructor
  · rintro ⟨before, word, after, rfl, hb, ha, hw⟩
    have htight : Text.IsTight word := Text.isTight_lower_iff.1 (hw ▸ m.isTight_token)
    rw [Text.trim_between hb ha, Text.trim_eq_self_iff.2 htight, hw]
  · intro h
    obtain ⟨-, before, after, ht, hb, ha⟩ := Text.trim_eq_iff.1 (rfl : Text.trim t = Text.trim t)
    exact ⟨before, Text.trim t, after, ht, hb, ha, h⟩

theorem eq_of_names {m n : Mode} {t : Text} (hm : m.Names t) (hn : n.Names t) : m = n :=
  token_injective ((names_iff_trim.1 hm).symm.trans (names_iff_trim.1 hn))

/-- **A token is read as the mode that it names.** -/
theorem ofToken?_eq_some_iff {t : Text} {m : Mode} : ofToken? t = some m ↔ m.Names t := by
  have htest : ∀ n : Mode, Text.sameIgnoringCase n.token (Text.trim t) = true ↔ n.Names t := by
    intro n
    rw [names_iff_trim, Text.sameIgnoringCase, beq_iff_eq, lower_token, eq_comm]
  have hfound : ∀ n, ofToken? t = some n → n.Names t := by
    intro n h
    have hn := List.find?_some h
    exact (htest n).1 hn
  refine ⟨hfound m, fun h => ?_⟩
  have hmem : m ∈ all := by cases m <;> decide
  cases hf : ofToken? t with
  | none => exact absurd ((htest m).2 h) (List.find?_eq_none.1 hf m hmem)
  | some n => rw [eq_of_names h (hfound n hf)]

theorem names_between {before after : Text} (hb : Text.IsSpacing before) (ha : Text.IsSpacing after)
    (m : Mode) (t : Text) : m.Names (before ++ t ++ after) ↔ m.Names t := by
  rw [names_iff_trim, names_iff_trim, Text.trim_between hb ha]

theorem names_congr {t u : Text} (h : Text.lower t = Text.lower u) (m : Mode) :
    m.Names t ↔ m.Names u := by
  rw [names_iff_trim, names_iff_trim, ← Text.trim_lower, ← Text.trim_lower, h]

end Mode

namespace ModeSet

/-! ## sets by their members -/

theorem eq_of_contains {s t : ModeSet} (h : ∀ m, s.contains m = t.contains m) : s = t := by
  cases s
  cases t
  rw [mk.injEq]
  exact ⟨h .html, h .body, h .fileMeta, h .vue, h .react⟩

theorem contains_empty (m : Mode) : empty.contains m = false := by
  cases m <;> rfl

theorem contains_standard (m : Mode) : standard.contains m = decide (m = .html) := by
  cases m <;> rfl

theorem contains_foldl_insert (ms : List Mode) (s : ModeSet) (m : Mode) :
    (ms.foldl insert s).contains m = (s.contains m || decide (m ∈ ms)) := by
  induction ms generalizing s with
  | nil => simp
  | cons n ms ih =>
    rw [List.foldl_cons, ih, contains_insert]
    by_cases h : m = n <;> simp [h]

theorem contains_ofList (ms : List Mode) (m : Mode) : (ofList ms).contains m = decide (m ∈ ms) := by
  rw [ofList, contains_foldl_insert, contains_empty, Bool.false_or]

theorem isEmpty_iff {s : ModeSet} : s.isEmpty = true ↔ ∀ m, s.contains m = false := by
  rw [isEmpty, beq_iff_eq]
  constructor
  · rintro rfl
    exact contains_empty
  · exact fun h => eq_of_contains fun m => (h m).trans (contains_empty m).symm

/-! ## lists of tokens -/

def Named (ts : List Text) (m : Mode) : Prop := ∃ t ∈ ts, m.Names t

theorem mem_filterMap_ofToken?_iff {ts : List Text} {m : Mode} :
    m ∈ ts.filterMap Mode.ofToken? ↔ Named ts m := by
  simp only [List.mem_filterMap, Mode.ofToken?_eq_some_iff, Named]

theorem named_append_iff {ts us : List Text} {m : Mode} :
    Named (ts ++ us) m ↔ Named ts m ∨ Named us m := by
  simp only [Named, List.mem_append, or_and_right, exists_or]

theorem named_cons_iff {t : Text} {ts : List Text} {m : Mode} :
    Named (t :: ts) m ↔ m.Names t ∨ Named ts m := by
  simp only [Named, List.mem_cons, or_and_right, exists_or, exists_eq_left]

/-- **A list of tokens resolves to the modes that are named, or to `html` when none is.** -/
theorem contains_resolve_iff {ts : List Text} {m : Mode} :
    (resolve (some ts)).contains m = true ↔ Named ts m ∨ (∀ n, ¬ Named ts n) ∧ m = .html := by
  have hof : ∀ n, (ofList (ts.filterMap Mode.ofToken?)).contains n = true ↔ Named ts n := by
    intro n
    rw [contains_ofList, decide_eq_true_eq, mem_filterMap_ofToken?_iff]
  have hempty : (ofList (ts.filterMap Mode.ofToken?)).isEmpty = true ↔ ∀ n, ¬ Named ts n := by
    rw [isEmpty_iff]
    exact forall_congr' fun n => by rw [← hof n, Bool.not_eq_true]
  unfold resolve
  dsimp only [Option.getD_some]
  split
  · next h =>
    have hnone := hempty.1 h
    rw [contains_standard, decide_eq_true_eq]
    exact ⟨fun hm => .inr ⟨hnone, hm⟩, fun hm => (hm.resolve_left (hnone m)).2⟩
  · next h =>
    have hsome : ¬ ∀ n, ¬ Named ts n := fun hn => h (hempty.2 hn)
    rw [hof]
    exact ⟨.inl, fun hm => hm.resolve_right fun hn => hsome hn.1⟩

theorem resolve_congr {ts us : List Text} (h : ∀ m, Named ts m ↔ Named us m) :
    resolve (some ts) = resolve (some us) := by
  refine eq_of_contains fun m => ?_
  rw [Bool.eq_iff_iff, contains_resolve_iff, contains_resolve_iff]
  simp only [h]

/-- lists of tokens that are the same but for the order of the tokens, tokens that stand there again,
tokens that name nothing, and the letter case and the blanks of a token -/
inductive Reworded : List Text → List Text → Prop
  | perm {ts us : List Text} (h : ts.Perm us) : Reworded ts us
  | again {t : Text} {ts : List Text} (h : t ∈ ts) : Reworded ts (t :: ts)
  | unknown {t : Text} (ts : List Text) (h : ∀ m : Mode, ¬ m.Names t) : Reworded ts (t :: ts)
  | letters {t u : Text} (ts : List Text) (h : Text.lower t = Text.lower u) :
      Reworded (t :: ts) (u :: ts)
  | blanks {before after : Text} (t : Text) (ts : List Text) (hb : Text.IsSpacing before)
      (ha : Text.IsSpacing after) : Reworded (t :: ts) ((before ++ t ++ after) :: ts)
  | symm {ts us : List Text} (h : Reworded ts us) : Reworded us ts
  | trans {ts us vs : List Text} (h : Reworded ts us) (h' : Reworded us vs) : Reworded ts vs

theorem Reworded.named_iff {ts us : List Text} (h : Reworded ts us) (m : Mode) :
    Named ts m ↔ Named us m := by
  induction h with
  | perm h => exact exists_congr fun t => and_congr_left fun _ => h.mem_iff
  | @again t ts h =>
    rw [named_cons_iff]
    exact ⟨.inr, fun hm => hm.elim (fun hn => ⟨t, h, hn⟩) id⟩
  | unknown ts h =>
    rw [named_cons_iff]
    exact ⟨.inr, fun hm => hm.resolve_left (h m)⟩
  | letters ts h => rw [named_cons_iff, named_cons_iff, Mode.names_congr h]
  | blanks t ts hb ha => rw [named_cons_iff, named_cons_iff, Mode.names_between hb ha]
  | symm _ ih => exact ih.symm
  | trans _ _ ih ih' => exact ih.trans ih'

/-- **What a list of tokens resolves to depends on the named modes alone.**  It is never empty, lists
that both name a mode give the union together, and a missing list is an empty one. -/
theorem resolve_named :
    (∀ ts m, (resolve (some ts)).contains m = true ↔
      (∃ t ∈ ts, m.Names t) ∨ (∀ t ∈ ts, ∀ n : Mode, ¬ n.Names t) ∧ m = .html) ∧
    (∀ tokens, ∃ m, (resolve tokens).contains m = true) ∧
    (∀ ts us, Reworded ts us → resolve (some ts) = resolve (some us)) ∧
    (∀ ts us, (∃ m, Named ts m) → (∃ m, Named us m) → ∀ m,
      (resolve (some (ts ++ us))).contains m =
        ((resolve (some ts)).contains m || (resolve (some us)).contains m)) ∧
    resolve none = resolve (some []) := by
  have hnone : ∀ ts : List Text,
      (∀ n, ¬ Named ts n) ↔ ∀ t ∈ ts, ∀ n : Mode, ¬ n.Names t := by
    intro ts
    simp only [Named, not_exists, not_and]
    exact ⟨fun h t ht n => h n t ht, fun h n t ht => h t ht n⟩
  refine ⟨fun ts m => ?_, fun tokens => ?_, fun ts us h => resolve_congr h.named_iff,
    fun ts us ht hu m => ?_, rfl⟩
  · rw [contains_resolve_iff, hnone]
    rfl
  · have hsome : ∀ ts, ∃ m, (resolve (some ts)).contains m = true := by
      intro ts
      by_cases h : ∃ m, Named ts m
      · obtain ⟨m, hm⟩ := h
        exact ⟨m, contains_resolve_iff.2 (.inl hm)⟩
      · exact ⟨.html, contains_resolve_iff.2 (.inr ⟨not_exists.1 h, rfl⟩)⟩
    cases tokens with
    | none => exact hsome []
    | some ts => exact hsome ts
  · have hres : ∀ vs : List Text, (∃ m, Named vs m) →
        ((resolve (some vs)).contains m = true ↔ Named vs m) := by
      rintro vs ⟨n, hn⟩
      rw [contains_resolve_iff]
      exact or_iff_left fun h => h.1 n hn
    obtain ⟨n, hn⟩ := ht
    rw [Bool.eq_iff_iff, Bool.or_eq_true, hres _ ⟨n, named_append_iff.2 (.inl hn)⟩, hres _ ⟨n, hn⟩,
      hres _ hu, named_append_iff]

/-- a list in another order, with a repeated token, a token of no mode and other spellings -/
theorem resolve_named_reworded :
    let ts := ["meta".toList, "vue-component".toList]
    let us := ["svelte".toList, " Vue-Component\u00a0".toList, "META".toList, "META".toList]
    Reworded ts us ∧ resolve (some ts) = resolve (some us) ∧
      ((∃ m, Named ts m) ∧ (∃ m, Named ["Body".toList] m) ∧
        (resolve (some (ts ++ ["Body".toList]))).contains .body =
          ((resolve (some ts)).contains .body || (resolve (some ["Body".toList])).contains .body)) := by
  intro ts us
  have hspace : Text.IsSpacing [' '] := List.all_eq_true.1 (by decide)
  have hwide : Text.IsSpacing ['\u00a0'] := List.all_eq_true.1 (by decide)
  have hspelled : Reworded ts ["META".toList, " Vue-Component\u00a0".toList] := by
    have h1 : Reworded ts ["META".toList, "vue-component".toList] := .letters _ (by decide)
    have h2 : Reworded ["META".toList, "vue-component".toList]
        ["vue-component".toList, "META".toList] := .perm (List.Perm.swap _ _ _)
    have h3 : Reworded ["vue-component".toList, "META".toList]
        ["Vue-Component".toList, "META".toList] := .letters _ (by decide)
    have h4 : Reworded ["Vue-Component".toList, "META".toList]
        [" Vue-Component\u00a0".toList, "META".toList] := .blanks _ _ hspace hwide
    exact h1.trans (h2.trans (h3.trans (h4.trans (.perm (List.Perm.swap _ _ _)))))
  have hunknown : ∀ m : Mode, ¬ m.Names "svelte".toList := by
    intro m
    rw [Mode.names_iff_trim]
    cases m <;> decide
  have hre : Reworded ts us := by
    refine hspelled.trans (.trans (.again List.mem_cons_self) (.trans (.unknown _ hunknown) ?_))
    refine .perm (List.Perm.cons _ ?_)
    exact (List.Perm.cons _ (List.Perm.swap _ _ _)).trans (List.Perm.swap _ _ _)
  have hbody : ∃ m, Named ["Body".toList] m :=
    ⟨.body, _, List.mem_cons_self, Mode.names_iff_trim.2 (by decide)⟩
  have hmeta : ∃ m, Named ts m :=
    ⟨.fileMeta, _, List.mem_cons_self, Mode.names_iff_trim.2 (by decide)⟩
  exact ⟨hre, resolve_named.2.2.1 ts us hre, hmeta, hbody,
    resolve_named.2.2.2.1 ts _ hmeta hbody .body⟩

end ModeSet

end MarkdownModule

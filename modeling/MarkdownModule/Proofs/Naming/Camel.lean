import MarkdownModule.Proofs.Component.Binding

/-!
# Names with their hyphens closed

A template looks a tag up by its name, by the name with each hyphen closed, and by that with a capital
at its start.  Closing a hyphen changes one letter alone, while the Pascal spelling is made of words.

* `Naming.camelize`            a name with its hyphens closed
* `Naming.isRegular`           the names whose hyphens and capitals stand at the borders of words
* `Naming.pascal_eq_camelize_iff`  the Pascal spelling is the closed name exactly for regular names
-/

namespace MarkdownModule.Naming

/-! ## hyphens -/

def closesHyphen (c : Char) : Bool := c.isAlphanum || c = '_'

/-- a name without the hyphens before letters and digits, which become capitals -/
def camelize : Text → Text
  | [] => []
  | [c] => [c]
  | c :: d :: r =>
    if c = '-' ∧ closesHyphen d = true then d.toUpper :: camelize r else c :: camelize (d :: r)

theorem camelize_cons {c : Char} (h : c ≠ '-') (r : Text) : camelize (c :: r) = c :: camelize r := by
  cases r with
  | nil => rfl
  | cons d r => rw [camelize, if_neg fun e => h e.1]

theorem camelize_hyphen {c : Char} (h : closesHyphen c = true) (r : Text) :
    camelize ('-' :: c :: r) = c.toUpper :: camelize r := by
  rw [camelize, if_pos ⟨rfl, h⟩]

/-- a hyphen that no letter and no digit follows leaves a mark -/
theorem exists_camelize_hyphen {c : Char} (h : c.isAlphanum = false) (r : Text) :
    ∃ d t, camelize ('-' :: c :: r) = d :: t ∧ d.isAlphanum = false := by
  cases hc : closesHyphen c with
  | true =>
    have hmark : c = '_' := by simpa [closesHyphen, h] using hc
    subst hmark
    exact ⟨'_', camelize r, camelize_hyphen hc r, rfl⟩
  | false => exact ⟨'-', camelize (c :: r), by rw [camelize, if_neg (by simp [hc])], rfl⟩

/-- a hyphen in front of a name makes its first letter a capital -/
theorem capitalize_camelize {c : Char} (h : c.isAlphanum = true) (r : Text) :
    capitalize (camelize (c :: r)) = camelize ('-' :: c :: r) := by
  have hne : c ≠ '-' := fun e => absurd (e ▸ h) (by decide)
  rw [camelize_hyphen (Bool.or_eq_true_iff.2 (.inl h)), camelize_cons hne]
  rfl

/-! ## regular names -/

def regularFrom (before : Char) : Text → Bool
  | [] => before ≠ '-'
  | c :: r =>
    (if c = '-' then decide (before ≠ '-')
      else c.isAlphanum &&
        (!c.isUpper || before = '-' || startsWord (some before) c r.head?)) && regularFrom c r

/-- whether a name has only letters, digits and single hyphens between them, and begins a word at each
of its capitals -/
def isRegular (name : Text) : Bool := regularFrom '-' name

/-! ## the Pascal spelling -/

theorem pascal_eq_split (name : Text) :
    pascal name = capitalize (split none name).1 ++ (split none name).2.flatMap capitalize := by
  have hfilter : ∀ ws : List Text,
      (ws.filter (!·.isEmpty)).flatMap capitalize = ws.flatMap capitalize := by
    intro ws
    induction ws with
    | nil => rfl
    | cons w ws ih =>
      cases w with
      | nil => exact ih
      | cons c w => exact congrArg (capitalize (c :: w) ++ ·) ih
  rw [pascal, words, hfilter, List.flatMap_cons]

/-- a name is read alike at its start and behind a hyphen -/
theorem split_none (name : Text) : split none name = split (some '-') name := by
  cases name with
  | nil => rfl
  | cons c r => rfl

section
variable (before : Option Char) (s : Text)

theorem isAlphanum_capitalize_of_forall {w : Text} (hw : ∀ c ∈ w, isWordChar c = true) :
    ∀ c ∈ capitalize w, c.isAlphanum = true := by
  cases w with
  | nil => exact fun c hc => absurd hc List.not_mem_nil
  | cons c w => exact isAlphanum_capitalize ⟨List.cons_ne_nil c w, hw⟩

/-- the words of a name are written with letters and digits -/
theorem isAlphanum_of_mem_split :
    ∀ c ∈ (split before s).1 ++ (split before s).2.flatMap capitalize, c.isAlphanum = true := by
  obtain ⟨hfirst, hmore⟩ := isWordChar_of_mem_split before s
  refine List.forall_mem_append.2 ⟨fun c hc => ?_, fun c hc => ?_⟩
  · rcases Bool.or_eq_true_iff.1 (hfirst c hc) with h | h
    · exact Bool.or_eq_true_iff.2 (.inl (Bool.or_eq_true_iff.2 (.inr h)))
    · exact Bool.or_eq_true_iff.2 (.inr h)
  · obtain ⟨w, hw, hc⟩ := List.mem_flatMap.1 hc
    exact isAlphanum_capitalize_of_forall (hmore w hw) c hc

theorem isAlphanum_of_mem_split_capitalize :
    ∀ c ∈ capitalize (split before s).1 ++ (split before s).2.flatMap capitalize,
      c.isAlphanum = true :=
  List.forall_mem_append.2
    ⟨isAlphanum_capitalize_of_forall (isWordChar_of_mem_split before s).1,
      fun c hc => isAlphanum_of_mem_split before s c (List.mem_append_right _ hc)⟩

end

/-- no word is written with another character than letters and digits -/
theorem ne_cons_of_forall {s : Text} (h : ∀ c ∈ s, c.isAlphanum = true) {c : Char}
    (hc : c.isAlphanum = false) (r : Text) : s ≠ c :: r := by
  rintro rfl
  rw [h c List.mem_cons_self] at hc
  exact nomatch hc

/-! ## one more character -/

section
variable {before : Option Char} {c : Char} {r : Text}

theorem split_separator (h : c.isAlphanum = false) :
    split before (c :: r) = ([], (split (some c) r).1 :: (split (some c) r).2) := by
  rw [split, h]
  rfl

theorem split_border (ha : c.isAlphanum = true) (h : startsWord before c r.head? = true) :
    split before (c :: r) =
      ([], (c.toLower :: (split (some c) r).1) :: (split (some c) r).2) := by
  rw [split, ha, h]
  rfl

theorem split_inside (ha : c.isAlphanum = true) (h : startsWord before c r.head? = false) :
    split before (c :: r) = (c.toLower :: (split (some c) r).1, (split (some c) r).2) := by
  rw [split, ha, h]
  rfl

end

theorem toLower_eq_self_iff {c : Char} : c.toLower = c ↔ c.isUpper = false := by
  refine ⟨fun h => Bool.eq_false_iff.2 fun hu => ?_, fun h => ?_⟩
  · have hlower : c.toLower.isLower = true := by
      rw [Char.isLower_toLower_eq_isAlpha]
      exact Bool.or_eq_true_iff.2 (.inl hu)
    exact Char.not_isUpper_of_isLower (h ▸ hlower) hu
  · exact Char.toLower_eq_of_not_isUpper (Bool.eq_false_iff.1 h)

theorem regularFrom_hyphen (before : Char) (r : Text) :
    regularFrom before ('-' :: r) = (decide (before ≠ '-') && regularFrom '-' r) := by
  rw [regularFrom, if_pos rfl]

theorem regularFrom_alphanum {c : Char} (h : c.isAlphanum = true) (before : Char) (r : Text) :
    regularFrom before (c :: r) =
      ((!c.isUpper || before = '-' || startsWord (some before) c r.head?) && regularFrom c r) := by
  rw [regularFrom, if_neg fun e => absurd (e ▸ h) (by decide), h, Bool.true_and]

theorem regularFrom_other {c : Char} (h : c.isAlphanum = false) (hne : c ≠ '-') (before : Char)
    (r : Text) : regularFrom before (c :: r) = false := by
  rw [regularFrom, if_neg hne, h]
  rfl

/-! ## all characters -/

/-- the words that go on after a character, and those after a hyphen, against the name with its
hyphens closed -/
theorem split_eq_camelize_iff (s : Text) :
    (∀ before, before ≠ '-' →
      ((split (some before) s).1 ++ (split (some before) s).2.flatMap capitalize = camelize s ↔
        regularFrom before s = true)) ∧
      (capitalize (split (some '-') s).1 ++ (split (some '-') s).2.flatMap capitalize =
          camelize ('-' :: s) ↔ regularFrom '-' s = true) := by
  induction s with
  | nil =>
    exact ⟨fun b hb => iff_of_true rfl (decide_eq_true hb),
      iff_of_false (List.cons_ne_nil _ _).symm Bool.false_ne_true⟩
  | cons c r ih =>
    obtain ⟨hword, hhyphen⟩ := ih
    cases ha : c.isAlphanum with
    | true =>
      have hne : c ≠ '-' := fun e => absurd (e ▸ ha) (by decide)
      refine ⟨fun b hb => ?_, ?_⟩
      · rw [camelize_cons hne, regularFrom_alphanum ha, decide_eq_false hb, Bool.or_false,
          Bool.and_eq_true, ← hword c hne]
        cases hs : startsWord (some b) c r.head? with
        | true =>
          have hupper : c.toLower.toUpper = c := by
            rw [Char.toUpper_toLower_eq_toUpper]
            exact Char.toUpper_eq_of_not_isLower fun hl =>
              Char.not_isUpper_of_isLower hl (Bool.and_eq_true_iff.1 hs).1
          rw [split_border ha hs, Bool.or_true, eq_self_iff_true, true_and, List.nil_append,
            List.flatMap_cons, capitalize, hupper, List.cons_append, List.cons.injEq,
            eq_self_iff_true, true_and]
        | false =>
          rw [split_inside ha hs, Bool.or_false, Bool.not_eq_true', ← toLower_eq_self_iff,
            List.cons_append, List.cons.injEq]
      · have hs : startsWord (some '-') c r.head? = false := Bool.and_false _
        rw [split_inside ha hs, camelize_hyphen (Bool.or_eq_true_iff.2 (.inl ha)),
          regularFrom_alphanum ha, decide_eq_true rfl, Bool.or_true, Bool.true_or, Bool.true_and,
          ← hword c hne, capitalize, Char.toUpper_toLower_eq_toUpper, List.cons_append,
          List.cons.injEq, eq_self_iff_true, true_and]
    | false =>
      have hmark : capitalize (split (some '-') (c :: r)).1 ++
          (split (some '-') (c :: r)).2.flatMap capitalize ≠ camelize ('-' :: c :: r) := by
        obtain ⟨d, t, e, hd⟩ := exists_camelize_hyphen ha r
        rw [e]
        exact ne_cons_of_forall (isAlphanum_of_mem_split_capitalize _ _) hd t
      by_cases hc : c = '-'
      · subst hc
        refine ⟨fun b hb => ?_, ?_⟩
        · rw [split_separator ha, regularFrom_hyphen, decide_eq_true hb, Bool.true_and, ← hhyphen,
            List.nil_append, List.flatMap_cons]
        · refine iff_of_false hmark ?_
          rw [regularFrom_hyphen]
          exact Bool.false_ne_true
      · refine ⟨fun b hb => iff_of_false ?_ ?_, iff_of_false hmark ?_⟩
        · rw [camelize_cons hc]
          exact ne_cons_of_forall (isAlphanum_of_mem_split _ _) ha _
        · rw [regularFrom_other ha hc]
          exact Bool.false_ne_true
        · rw [regularFrom_other ha hc]
          exact Bool.false_ne_true

/-- **The Pascal spelling of a name is the closed name with a capital exactly for regular names.** -/
theorem pascal_eq_camelize_iff {name : Text} (h : name.head?.any Char.isAlpha = true) :
    pascal name = capitalize (camelize name) ↔ isRegular name = true := by
  cases name with
  | nil => exact nomatch h
  | cons c r =>
    rw [capitalize_camelize (Bool.or_eq_true_iff.2 (.inl h)), pascal_eq_split, split_none]
    exact (split_eq_camelize_iff (c :: r)).2

end MarkdownModule.Naming

import MarkdownModule.Proofs.Naming.Canonical

/-!
# Reading a Pascal spelling back

The Pascal spelling has no hyphens: the border between two words is seen there by the capital of the
second one.  A digit has no capital, and a capital behind another capital begins a word only if a
small letter follows it.  Two words whose border is not seen are read as one.

* `Naming.isSeen`            whether the border between two words is seen
* `Naming.words_pascal`      the words of a Pascal spelling
* `Naming.kebab_pascal_iff`  the names whose kebab spelling can be read off their Pascal spelling
-/

namespace MarkdownModule.Naming

/-- whether the border between two words that follow each other is seen in a Pascal spelling -/
def isSeen (v w : Text) : Bool :=
  w.head?.any Char.isAlpha &&
    (decide (2 ≤ v.length) || v.head?.any Char.isDigit || w.tail.head?.any Char.isAlpha)

/-! ## capitals -/

theorem isLower_eq_isAlpha {c : Char} (h : isWordChar c = true) : c.isLower = c.isAlpha := by
  rw [Char.isAlpha, Bool.eq_false_iff.2 (not_isUpper_of_isWordChar h), Bool.false_or]

theorem isUpper_toUpper {c : Char} (h : isWordChar c = true) (hd : c.isDigit = false) :
    c.toUpper.isUpper = true := by
  rw [Char.isUpper_toUpper_eq_isAlpha, ← isLower_eq_isAlpha h]
  exact (Bool.or_eq_true_iff.1 h).resolve_right (by rw [hd]; decide)

theorem isDigit_toUpper {c : Char} (h : isWordChar c = true) : c.toUpper.isDigit = c.isDigit := by
  cases hd : c.isDigit with
  | true => rw [toUpper_of_isDigit hd, hd]
  | false =>
    refine Bool.eq_false_iff.2 fun hu => ?_
    exact not_isUpper_of_isWordChar (Bool.or_eq_true_iff.2 (.inr hu)) (isUpper_toUpper h hd)

/-- the last character of a capitalized word is small or a digit, unless the word is one letter -/
theorem getLast?_capitalize {v : Text} (hv : IsWord v) :
    (capitalize v).getLast?.any isWordChar =
      (decide (2 ≤ v.length) || v.head?.any Char.isDigit) := by
  match v with
  | [] => exact absurd rfl hv.ne_nil
  | [c] =>
    show (c.toUpper.isLower || c.toUpper.isDigit) = c.isDigit
    rw [Char.isLower_toUpper_eq_false, isDigit_toUpper (hv.chars c List.mem_cons_self),
      Bool.false_or]
  | c :: d :: r =>
    have hlast : (capitalize (c :: d :: r)).getLast? =
        some ((d :: r).getLast (List.cons_ne_nil d r)) :=
      List.getLast?_cons_cons.trans (List.getLast?_eq_some_getLast _)
    rw [hlast]
    exact hv.chars _ (List.mem_cons_of_mem c (List.getLast_mem _))

/-- a word of one letter is a capital when it is capitalized -/
theorem isUpper_getLast?_capitalize {v : Text} (hv : IsWord v)
    (h : (decide (2 ≤ v.length) || v.head?.any Char.isDigit) = false) :
    (capitalize v).getLast?.any Char.isUpper = true := by
  match v with
  | [] => exact absurd rfl hv.ne_nil
  | [c] => exact isUpper_toUpper (hv.chars c List.mem_cons_self) h
  | c :: d :: r => exact nomatch h

/-- the character behind the first one of a word is small exactly when it is a letter of the word -/
theorem head?_append_words {r : Text} (hr : ∀ c ∈ r, isWordChar c = true) {ws : List Text}
    (hws : ∀ w ∈ ws, IsWord w) :
    (r ++ ws.flatMap capitalize).head?.any Char.isLower = r.head?.any Char.isAlpha := by
  match r, ws with
  | c :: r, _ => exact isLower_eq_isAlpha (hr c List.mem_cons_self)
  | [], [] => rfl
  | [], [] :: ws => exact absurd rfl (hws [] List.mem_cons_self).ne_nil
  | [], (c :: w) :: ws => exact Char.isLower_toUpper_eq_false c

/-- a word begins at its capital exactly when the border before it is seen -/
theorem startsWord_capital {v : Text} (hv : IsWord v) {c : Char} {r : Text}
    (hw : IsWord (c :: r)) {ws : List Text} (hws : ∀ w ∈ ws, IsWord w) :
    startsWord (capitalize v).getLast? c.toUpper (r ++ ws.flatMap capitalize).head? =
      isSeen v (c :: r) := by
  have hafter := head?_append_words (List.forall_mem_cons.1 hw.chars).2 hws
  have hbefore := getLast?_capitalize hv
  show (c.toUpper.isUpper && ((capitalize v).getLast?.any isWordChar || _)) = (c.isAlpha && _)
  rw [Char.isUpper_toUpper_eq_isAlpha, hbefore, hafter]
  cases hlong : decide (2 ≤ v.length) || v.head?.any Char.isDigit with
  | true => rfl
  | false =>
    rw [isUpper_getLast?_capitalize hv hlong, Bool.true_and]
    rfl

/-! ## the words of a Pascal spelling -/

/-- the word that is read for the first one of a row, and the words that are read after it -/
def joinHidden (v : Text) : List Text → Text × List Text
  | [] => (v, [])
  | w :: ws =>
    let (x, xs) := joinHidden w ws
    if isSeen v w then (v, x :: xs) else (v ++ x, xs)

theorem joinHidden_cons (v w : Text) (ws : List Text) :
    joinHidden v (w :: ws) =
      if isSeen v w then (v, (joinHidden w ws).1 :: (joinHidden w ws).2)
      else (v ++ (joinHidden w ws).1, (joinHidden w ws).2) := rfl

theorem split_capitalize (before : Option Char) {c : Char} {r : Text} (hw : IsWord (c :: r))
    (t : Text) :
    split before (capitalize (c :: r) ++ t) =
      let m := split (capitalize (c :: r)).getLast? t
      if startsWord before c.toUpper (r ++ t).head? then ([], (c :: r ++ m.1) :: m.2)
      else (c :: r ++ m.1, m.2) := by
  obtain ⟨hc, hr⟩ := List.forall_mem_cons.1 hw.chars
  have halnum : c.toUpper.isAlphanum = true := by
    rw [Char.isAlphanum, Char.isAlpha_toUpper_eq_isAlpha, isDigit_toUpper hc,
      ← isLower_eq_isAlpha hc]
    exact hc
  have hlast : (capitalize (c :: r)).getLast? = r.getLast?.or (some c.toUpper) := by
    rw [capitalize, List.getLast?_cons]
    cases r.getLast? <;> rfl
  show split before (c.toUpper :: (r ++ t)) = _
  rw [split, split_append hr, halnum, Char.toLower_toUpper_eq_toLower, toLower_of_isWordChar hc,
    hlast]
  rfl

/-- the words behind a capitalized word, of which the first may go on with it -/
theorem split_capitals {v : Text} (hv : IsWord v) {ws : List Text} (hws : ∀ w ∈ ws, IsWord w) :
    let m := split (capitalize v).getLast? (ws.flatMap capitalize)
    (v ++ m.1, m.2) = joinHidden v ws := by
  induction ws generalizing v with
  | nil => exact congrArg (·, []) (List.append_nil v)
  | cons w ws ih =>
    obtain ⟨hw, hrest⟩ := List.forall_mem_cons.1 hws
    cases w with
    | nil => exact absurd rfl hw.ne_nil
    | cons c r =>
      dsimp only
      rw [List.flatMap_cons, split_capitalize _ hw, startsWord_capital hv hw hrest, joinHidden_cons,
        ← ih hw hrest]
      split
      · rw [List.append_nil]
      · rfl

theorem isWord_joinHidden {v : Text} {ws : List Text} (h : ∀ w ∈ v :: ws, IsWord w) :
    ∀ w ∈ (joinHidden v ws).1 :: (joinHidden v ws).2, IsWord w := by
  induction ws generalizing v with
  | nil => exact h
  | cons w ws ih =>
    obtain ⟨hv, hws⟩ := List.forall_mem_cons.1 h
    obtain ⟨hx, hxs⟩ := List.forall_mem_cons.1 (ih hws)
    rw [joinHidden_cons]
    split
    · exact List.forall_mem_cons.2 ⟨hv, List.forall_mem_cons.2 ⟨hx, hxs⟩⟩
    · refine List.forall_mem_cons.2 ⟨⟨?_, ?_⟩, hxs⟩
      · exact fun e => hv.ne_nil (List.append_eq_nil_iff.1 e).1
      · exact List.forall_mem_append.2 ⟨hv.chars, hx.chars⟩

/-- **The words of a Pascal spelling are the words of the name, with those written together whose
border is not seen.** -/
theorem words_pascal {name v : Text} {ws : List Text} (h : words name = v :: ws) :
    words (pascal name) = (joinHidden v ws).1 :: (joinHidden v ws).2 := by
  have hall : ∀ w ∈ v :: ws, IsWord w := fun w hw => isWord_of_mem_words (h ▸ hw)
  obtain ⟨hv, hws⟩ := List.forall_mem_cons.1 hall
  have hsplit : split none (pascal name) = joinHidden v ws := by
    rw [pascal, h, List.flatMap_cons, ← split_capitals hv hws]
    cases v with
    | nil => exact absurd rfl hv.ne_nil
    | cons c r =>
      rw [split_capitalize none hv, startsWord, Option.any_none, Option.any_none, Bool.false_and,
        Bool.or_false, Bool.and_false]
      rfl
  rw [words, hsplit]
  refine List.filter_eq_self.2 fun w hw => ?_
  cases w with
  | nil => exact absurd rfl (isWord_joinHidden hall [] hw).ne_nil
  | cons c r => rfl

/-! ## the round trip -/

theorem length_joinHidden_le (v : Text) (ws : List Text) :
    (joinHidden v ws).2.length ≤ ws.length := by
  induction ws generalizing v with
  | nil => exact Nat.le_refl 0
  | cons w ws ih =>
    have h := ih w
    rw [joinHidden_cons]
    split
    · exact Nat.succ_le_succ h
    · exact Nat.le_succ_of_le h

/-- no words are written together exactly when every border is seen -/
theorem joinHidden_eq_iff (v : Text) (ws : List Text) :
    joinHidden v ws = (v, ws) ↔ (v :: ws).IsChain fun v w => isSeen v w = true := by
  induction ws generalizing v with
  | nil => exact iff_of_true rfl (List.isChain_singleton v)
  | cons w ws ih =>
    rw [List.isChain_cons_cons, ← ih w, joinHidden_cons]
    by_cases hs : isSeen v w = true
    · rw [if_pos hs, Prod.mk.injEq, List.cons.injEq, Prod.ext_iff]
      exact ⟨fun h => ⟨hs, h.2⟩, fun h => ⟨rfl, h.2⟩⟩
    · have hlength := length_joinHidden_le w ws
      rw [if_neg hs]
      refine iff_of_false (fun e => ?_) fun h => hs h.1
      have := congrArg (·.2.length) e
      simp only [List.length_cons] at this
      omega

/-- the names of which every border between two words is seen, with the words as the parts between
the hyphens of the kebab spelling -/
def Separated (name : Text) : Prop :=
  (List.splitOn '-' (kebab name)).IsChain fun v w => isSeen v w = true

theorem separated_iff (name : Text) :
    Separated name ↔ (words name).IsChain fun v w => isSeen v w = true := by
  unfold Separated
  by_cases hn : words name = []
  · rw [kebab, hn]
    exact iff_of_true (List.isChain_singleton _) List.isChain_nil
  · rw [kebab, List.splitOn_intercalate '-'
      (fun w hw => (isWord_of_mem_words hw).hyphen_not_mem) hn]

theorem kebab_pascal_eq_iff (name : Text) : kebab (pascal name) = kebab name ↔ Separated name := by
  have hwords : kebab (pascal name) = kebab name ↔ words (pascal name) = words name :=
    ⟨words_eq_of_kebab_eq, fun h => by rw [kebab, kebab, h]⟩
  rw [hwords, separated_iff]
  cases hn : words name with
  | nil => exact iff_of_true (by rw [pascal, hn]; rfl) List.isChain_nil
  | cons v ws => rw [words_pascal hn, ← joinHidden_eq_iff, Prod.ext_iff, List.cons.injEq]

/-- **The kebab spelling can be read off the Pascal spelling exactly when every border between two
words is seen**, and among names of this kind those with one Pascal spelling are those with one
kebab spelling. -/
theorem kebab_pascal_iff (name : Text) :
    (kebab (pascal name) = kebab name ↔ Separated name) ∧
      ∀ other, Separated name → Separated other →
        (pascal name = pascal other ↔ kebab name = kebab other) := by
  refine ⟨kebab_pascal_eq_iff name, fun other hname hother => ⟨fun h => ?_, pascal_eq_of_kebab_eq⟩⟩
  rw [← (kebab_pascal_eq_iff name).2 hname, h, (kebab_pascal_eq_iff other).2 hother]

/-- acronyms and digits at the end of a word do not hide a border -/
theorem kebab_pascal_iff_provider :
    let name := "MDXProvider2-Go".toList
    let other := "mdx_provider2.go".toList
    Separated name ∧ Separated other ∧ kebab (pascal name) = kebab name ∧
      (pascal name = pascal other ↔ kebab name = kebab other) := by
  intro name other
  have hname : Separated name := by unfold Separated; decide +kernel
  have hother : Separated other := by unfold Separated; decide +kernel
  obtain ⟨hback, hsame⟩ := kebab_pascal_iff name
  exact ⟨hname, hother, hback.2 hname, hsame other hname hother⟩

/-- a digit has no capital, and behind a single letter a single letter is taken for an acronym -/
example : (kebab (pascal "x-2d".toList), kebab (pascal "a-b-c".toList),
    kebab (pascal "a-bc".toList)) = ("x2d".toList, "abc".toList, "a-bc".toList) := by decide +kernel

end MarkdownModule.Naming

import MarkdownModule.Proofs.Naming.Spelling

/-!
# The kebab spelling is canonical

A kebab spelling is a name whose words are joined by single hyphens.  It has the words of the name
that it spells, so that it stands for the same component, and these words are all letters and digits
of the name.

* `Naming.IsKebab`            words joined by single hyphens
* `Naming.words_intercalate`  such a text has these words
* `Naming.flatten_words`      the words of a name are its letters and digits
* `Naming.kebab_kebab`        the kebab spelling of a kebab spelling
* `Naming.pascal_kebab`       its Pascal spelling
* `Naming.kebab_normal`       the kebab spelling as a normal form
-/

namespace MarkdownModule.Naming

/-- one or more words joined by single hyphens -/
def IsKebab (s : Text) : Prop :=
  ∃ ws : List Text, ws ≠ [] ∧ (∀ w ∈ ws, IsWord w) ∧ s = ['-'].intercalate ws

/-! ## words in a row -/

theorem split_wordChar (before : Option Char) {c : Char} (hc : isWordChar c = true) (r : Text) :
    split before (c :: r) = (c :: (split (some c) r).1, (split (some c) r).2) := by
  have ha : c.isAlphanum = true := by
    rcases Bool.or_eq_true_iff.1 hc with hl | hd
    · exact Bool.or_eq_true_iff.2 (.inl (Bool.or_eq_true_iff.2 (.inr hl)))
    · exact Bool.or_eq_true_iff.2 (.inr hd)
  have hs : startsWord before c r.head? = false := by
    rw [startsWord, Bool.eq_false_iff.2 (not_isUpper_of_isWordChar hc)]
    rfl
  rw [split, ha, hs, toLower_of_isWordChar hc]
  rfl

theorem split_hyphen (before : Option Char) (r : Text) :
    split before ('-' :: r) = ([], (split (some '-') r).1 :: (split (some '-') r).2) := by
  rw [split]
  rfl

/-- a row of characters of words goes on with the word that was begun -/
theorem split_append {w : Text} (hw : ∀ c ∈ w, isWordChar c = true) (before : Option Char)
    (t : Text) :
    split before (w ++ t) = (w ++ (split (w.getLast?.or before) t).1,
      (split (w.getLast?.or before) t).2) := by
  induction w generalizing before with
  | nil => rfl
  | cons c w ih =>
    obtain ⟨hc, hw⟩ := List.forall_mem_cons.1 hw
    have hlast : (c :: w).getLast?.or before = w.getLast?.or (some c) := by
      rw [List.getLast?_cons]
      cases w.getLast? <;> rfl
    rw [List.cons_append, split_wordChar before hc, ih hw, hlast]
    rfl

theorem split_intercalate {w : Text} {ws : List Text} (h : ∀ v ∈ w :: ws, IsWord v)
    (before : Option Char) : split before (['-'].intercalate (w :: ws)) = (w, ws) := by
  induction ws generalizing w before with
  | nil =>
    have hlast : ['-'].intercalate [w] = w ++ [] := by simp [List.intercalate]
    rw [hlast, split_append (h w List.mem_cons_self).chars]
    exact congrArg (·, []) (List.append_nil w)
  | cons v vs ih =>
    obtain ⟨hw, hvs⟩ := List.forall_mem_cons.1 h
    have hnext : ['-'].intercalate (w :: v :: vs) = w ++ '-' :: ['-'].intercalate (v :: vs) := by
      simp [List.intercalate]
    rw [hnext, split_append hw.chars, split_hyphen, ih hvs, List.append_nil]

/-- **Words joined by hyphens are the words of the text.** -/
theorem words_intercalate {ws : List Text} (h : ∀ w ∈ ws, IsWord w) :
    words (['-'].intercalate ws) = ws := by
  cases ws with
  | nil => rfl
  | cons w ws =>
    rw [words, split_intercalate h]
    refine List.filter_eq_self.2 fun v hv => ?_
    cases v with
    | nil => exact absurd rfl (h [] hv).ne_nil
    | cons c r => rfl

/-! ## spellings of a spelling -/

theorem words_kebab (name : Text) : words (kebab name) = words name :=
  words_intercalate fun _ hw => isWord_of_mem_words hw

theorem kebab_kebab (name : Text) : kebab (kebab name) = kebab name := by
  rw [kebab, words_kebab, kebab]

theorem pascal_kebab (name : Text) : pascal (kebab name) = pascal name := by
  rw [pascal, words_kebab, pascal]

theorem isKebab_kebab {name : Text} (h : words name ≠ []) : IsKebab (kebab name) :=
  ⟨words name, h, fun _ hw => isWord_of_mem_words hw, rfl⟩

/-! ## letters and digits -/

theorem flatten_split (before : Option Char) (s : Text) :
    (split before s).1 ++ (split before s).2.flatten = Text.lower (s.filter Char.isAlphanum) := by
  induction s generalizing before with
  | nil => rfl
  | cons c r ih =>
    have h := ih (some c)
    unfold split
    dsimp only
    by_cases ha : c.isAlphanum = true
    · have hlower : Text.lower ((c :: r).filter Char.isAlphanum) =
          c.toLower :: ((split (some c) r).1 ++ (split (some c) r).2.flatten) := by
        rw [h, List.filter_cons_of_pos ha]
        rfl
      rw [hlower, ha, if_neg (by decide)]
      split
      · rfl
      · rfl
    · rw [List.filter_cons_of_neg ha, ← h, if_pos (by simpa using ha)]
      rfl

/-- **The words of a name, written together, are its letters and digits in lower case.** -/
theorem flatten_words (name : Text) :
    (words name).flatten = Text.lower (name.filter Char.isAlphanum) := by
  rw [← flatten_split none name, words]
  exact List.flatten_filter_not_isEmpty

theorem filter_hyphen {w : Text} (hw : IsWord w) : ('-' :: w).filter (· ≠ '-') = w := by
  rw [List.filter_cons_of_neg (by decide)]
  exact List.filter_eq_self.2 fun c hc => decide_eq_true (ne_hyphen_of_isWordChar (hw.chars c hc))

/-- the kebab spelling without its hyphens -/
theorem filter_kebab (name : Text) : (kebab name).filter (· ≠ '-') = (words name).flatten := by
  by_cases hn : words name = []
  · rw [kebab, hn]
    rfl
  · calc (kebab name).filter (· ≠ '-')
        = ('-' :: kebab name).filter (· ≠ '-') := by rw [List.filter_cons_of_neg (by decide)]
      _ = ((words name).flatMap ('-' :: ·)).filter (· ≠ '-') := by rw [flatMap_hyphen hn, kebab]
      _ = (words name).flatMap (fun w => ('-' :: w).filter (· ≠ '-')) := List.filter_flatMap ..
      _ = (words name).flatMap id :=
          List.flatMap_congr fun w hw => filter_hyphen (isWord_of_mem_words hw)
      _ = (words name).flatten := List.flatMap_id ..

theorem lower_capitalize {w : Text} (hw : IsWord w) : Text.lower (capitalize w) = w := by
  cases w with
  | nil => rfl
  | cons c r =>
    obtain ⟨hc, hr⟩ := List.forall_mem_cons.1 hw.chars
    show c.toUpper.toLower :: r.map Char.toLower = c :: r
    rw [Char.toLower_toUpper_eq_toLower, toLower_of_isWordChar hc,
      List.map_congr_left fun d hd => toLower_of_isWordChar (hr d hd), List.map_id']

/-- the Pascal spelling in lower case -/
theorem lower_pascal (name : Text) : Text.lower (pascal name) = (words name).flatten := by
  rw [Text.lower, pascal, List.map_flatMap]
  exact (List.flatMap_congr fun w hw => lower_capitalize (isWord_of_mem_words hw)).trans
    (List.flatMap_id ..)

/-- **The kebab spelling is a normal form.**  It is empty or words joined by single hyphens, texts
of this form are the ones that it leaves as they are, and both spellings have the letters and digits
of the name. -/
theorem kebab_normal (name : Text) :
    (kebab name = [] ∨ IsKebab (kebab name)) ∧
      (kebab name = name ↔ name = [] ∨ IsKebab name) ∧
      kebab (kebab name) = kebab name ∧
      (kebab name).filter (· ≠ '-') = Text.lower (name.filter Char.isAlphanum) ∧
      pascal name = pascal (kebab name) ∧
      Text.lower (pascal name) = Text.lower (name.filter Char.isAlphanum) := by
  have hform : kebab name = [] ∨ IsKebab (kebab name) := by
    by_cases hn : words name = []
    · exact .inl (by rw [kebab, hn]; rfl)
    · exact .inr (isKebab_kebab hn)
  refine ⟨hform, ⟨fun h => by rwa [h] at hform, ?_⟩, kebab_kebab name, ?_,
    (pascal_kebab name).symm, ?_⟩
  · rintro (rfl | ⟨ws, -, hws, rfl⟩)
    · rfl
    · rw [kebab, words_intercalate hws]
  · rw [filter_kebab, flatten_words]
  · rw [lower_pascal, flatten_words]

end MarkdownModule.Naming

import Mathlib
import MarkdownModule.Jsx.Style
import MarkdownModule.Naming

/-!
# What a spelling keeps of a name

The kebab spelling keeps the words of a name.  The Pascal spelling keeps the words up to the hyphens
before digits, since a digit has no capital.

* `Naming.words_eq_of_kebab_eq`  the words can be read off the kebab spelling
* `Naming.pascal_eq_camelCase`   the Pascal spelling is made from the kebab spelling alone
* `Naming.pascal_eq_iff`         two names have one Pascal spelling when their kebab spellings agree
                                 without the hyphens before digits
-/

namespace MarkdownModule.Naming

/-! ## words -/

def isWordChar (c : Char) : Bool := c.isLower || c.isDigit

theorem not_isUpper_of_isWordChar {c : Char} (h : isWordChar c = true) : ¬ c.isUpper = true := by
  intro hu
  rcases Bool.or_eq_true_iff.1 h with hl | hd
  · exact Char.not_isUpper_of_isLower hl hu
  · simp only [Char.isUpper, Char.isDigit, Bool.and_eq_true, decide_eq_true_eq] at hu hd
    have h1 : (65 : Nat) ≤ c.val.toNat := hu.1
    have h2 : c.val.toNat ≤ (57 : Nat) := hd.2
    omega

theorem toLower_of_isWordChar {c : Char} (h : isWordChar c = true) : c.toLower = c :=
  Char.toLower_eq_of_not_isUpper (not_isUpper_of_isWordChar h)

theorem ne_hyphen_of_isWordChar {c : Char} (h : isWordChar c = true) : c ≠ '-' := by
  rintro rfl
  exact absurd h (by decide)

theorem isWordChar_toLower {c : Char} (h : c.isAlphanum = true) : isWordChar c.toLower = true := by
  rcases Bool.or_eq_true_iff.1 h with ha | hd
  · exact Bool.or_eq_true_iff.2 (.inl (by rw [Char.isLower_toLower_eq_isAlpha]; exact ha))
  · rw [toLower_of_isWordChar (Bool.or_eq_true_iff.2 (.inr hd))]
    exact Bool.or_eq_true_iff.2 (.inr hd)

theorem isWordChar_of_mem_split (before : Option Char) (s : Text) :
    (∀ c ∈ (split before s).1, isWordChar c = true) ∧
      ∀ w ∈ (split before s).2, ∀ c ∈ w, isWordChar c = true := by
  induction s generalizing before with
  | nil => exact ⟨fun _ h => absurd h List.not_mem_nil, fun _ h => absurd h List.not_mem_nil⟩
  | cons c r ih =>
    obtain ⟨h1, h2⟩ := ih (some c)
    unfold split
    dsimp only
    by_cases ha : c.isAlphanum = true
    · have hw : ∀ d ∈ c.toLower :: (split (some c) r).1, isWordChar d = true :=
        List.forall_mem_cons.2 ⟨isWordChar_toLower ha, h1⟩
      rw [ha]
      by_cases hs : startsWord before c r.head? = true
      · rw [if_neg (by decide), if_pos hs]
        exact ⟨fun _ h => absurd h List.not_mem_nil, List.forall_mem_cons.2 ⟨hw, h2⟩⟩
      · rw [if_neg (by decide), if_neg hs]
        exact ⟨hw, h2⟩
    · rw [if_pos (by simpa using ha)]
      exact ⟨fun _ h => absurd h List.not_mem_nil, List.forall_mem_cons.2 ⟨h1, h2⟩⟩

structure IsWord (w : Text) : Prop where
  ne_nil : w ≠ []
  chars : ∀ c ∈ w, isWordChar c = true

theorem isWord_of_mem_words {name w : Text} (h : w ∈ words name) : IsWord w := by
  obtain ⟨h1, h2⟩ := isWordChar_of_mem_split none name
  obtain ⟨hm, he⟩ := List.mem_filter.1 h
  refine ⟨?_, ?_⟩
  · rintro rfl
    exact absurd he (by decide)
  · rcases List.mem_cons.1 hm with rfl | hm
    · exact h1
    · exact h2 w hm

theorem IsWord.hyphen_not_mem {w : Text} (h : IsWord w) : '-' ∉ w :=
  fun hm => ne_hyphen_of_isWordChar (h.chars _ hm) rfl

/-! ## the kebab spelling -/

theorem words_eq_of_splitOn (name : Text) :
    words name = (List.splitOn '-' (kebab name)).filter (!·.isEmpty) := by
  by_cases hn : words name = []
  · rw [kebab, hn]; rfl
  · rw [kebab, List.splitOn_intercalate '-'
      (fun w hw => (isWord_of_mem_words hw).hyphen_not_mem) hn]
    refine (List.filter_eq_self.2 ?_).symm
    intro w hw
    cases w with
    | nil => exact absurd rfl (isWord_of_mem_words hw).ne_nil
    | cons c r => rfl

theorem words_eq_of_kebab_eq {a b : Text} (h : kebab a = kebab b) : words a = words b := by
  rw [words_eq_of_splitOn, words_eq_of_splitOn, h]

theorem pascal_eq_of_kebab_eq {a b : Text} (h : kebab a = kebab b) : pascal a = pascal b := by
  rw [pascal, pascal, words_eq_of_kebab_eq h]

theorem flatMap_hyphen {ws : List Text} (h : ws ≠ []) :
    ws.flatMap ('-' :: ·) = '-' :: ['-'].intercalate ws := by
  induction ws with
  | nil => exact absurd rfl h
  | cons w ws ih =>
    cases ws with
    | nil => simp
    | cons v vs =>
      rw [List.flatMap_cons, ih (List.cons_ne_nil v vs)]
      simp [List.intercalate]

/-! ## the Pascal spelling -/

theorem camelCase_append {s : Text} (hs : ∀ c ∈ s, isWordChar c = true) (t : Text) :
    Jsx.camelCase false (s ++ t) = s ++ Jsx.camelCase false t := by
  induction s with
  | nil => rfl
  | cons c s ih =>
    obtain ⟨hc, hs⟩ := List.forall_mem_cons.1 hs
    rw [List.cons_append, Jsx.camelCase, if_neg (ne_hyphen_of_isWordChar hc), ih hs,
      if_neg Bool.false_ne_true, toLower_of_isWordChar hc]
    rfl

theorem camelCase_word (b : Bool) {w : Text} (hw : IsWord w) (t : Text) :
    Jsx.camelCase b ('-' :: w ++ t) = capitalize w ++ Jsx.camelCase false t := by
  cases w with
  | nil => exact absurd rfl hw.ne_nil
  | cons c r =>
    obtain ⟨hc, hr⟩ := List.forall_mem_cons.1 hw.chars
    rw [List.cons_append, Jsx.camelCase, if_pos rfl, List.cons_append, Jsx.camelCase,
      if_neg (ne_hyphen_of_isWordChar hc), if_pos rfl, camelCase_append hr]
    rfl

theorem camelCase_words (b : Bool) {ws : List Text} (h : ∀ w ∈ ws, IsWord w) :
    Jsx.camelCase b (ws.flatMap ('-' :: ·)) = ws.flatMap capitalize := by
  induction ws generalizing b with
  | nil => rfl
  | cons w ws ih =>
    obtain ⟨hw, hws⟩ := List.forall_mem_cons.1 h
    rw [List.flatMap_cons, camelCase_word b hw, ih false hws, List.flatMap_cons]

/-- **The Pascal spelling is the kebab spelling in camel case, with a capital at its start.** -/
theorem pascal_eq_camelCase (name : Text) : pascal name = Jsx.camelCase true (kebab name) := by
  by_cases hn : words name = []
  · rw [pascal, kebab, hn]; rfl
  · rw [pascal, ← camelCase_words false fun w hw => isWord_of_mem_words hw, flatMap_hyphen hn,
      Jsx.camelCase, if_pos rfl, kebab]

/-! ## hyphens before digits -/

/-- a text without the hyphens that stand before digits -/
def closeDigits : Text → Text
  | [] => []
  | c :: r => if c = '-' ∧ r.head?.any Char.isDigit then closeDigits r else c :: closeDigits r

/-- a text with a hyphen before each capital, which becomes small -/
def openCapitals : Text → Text
  | [] => []
  | c :: r => if c.isUpper then '-' :: c.toLower :: openCapitals r else c :: openCapitals r

theorem toUpper_of_isDigit {c : Char} (h : c.isDigit = true) : c.toUpper = c := by
  apply Char.toUpper_eq_of_not_isLower
  intro hl
  simp only [Char.isLower, Char.isDigit, Bool.and_eq_true, decide_eq_true_eq] at hl h
  have h1 : (97 : Nat) ≤ c.val.toNat := hl.1
  have h2 : c.val.toNat ≤ (57 : Nat) := h.2
  omega

theorem camelCase_closeDigits (b : Bool) (s : Text) :
    Jsx.camelCase b (closeDigits s) = Jsx.camelCase b s := by
  induction s generalizing b with
  | nil => rfl
  | cons c r ih =>
    rw [closeDigits]
    by_cases h : c = '-' ∧ r.head?.any Char.isDigit = true
    · obtain ⟨rfl, hd⟩ := h
      rw [if_pos ⟨rfl, hd⟩, ih, Jsx.camelCase.eq_def b ('-' :: r)]
      cases r with
      | nil => exact absurd hd (by decide)
      | cons d r =>
        have hw : isWordChar d = true := Bool.or_eq_true_iff.2 (.inr hd)
        show Jsx.camelCase b (d :: r) = Jsx.camelCase true (d :: r)
        rw [Jsx.camelCase, Jsx.camelCase, toUpper_of_isDigit hd, toLower_of_isWordChar hw, ite_self,
          ite_self]
    · rw [if_neg h, Jsx.camelCase, Jsx.camelCase, ih, ih]

theorem closeDigits_append {s : Text} (hs : ∀ c ∈ s, isWordChar c = true) (t : Text) :
    closeDigits (s ++ t) = s ++ closeDigits t := by
  induction s with
  | nil => rfl
  | cons c s ih =>
    obtain ⟨hc, hs⟩ := List.forall_mem_cons.1 hs
    rw [List.cons_append, closeDigits, if_neg (fun h => ne_hyphen_of_isWordChar hc h.1), ih hs]
    rfl

theorem openCapitals_append {s : Text} (hs : ∀ c ∈ s, isWordChar c = true) (t : Text) :
    openCapitals (s ++ t) = s ++ openCapitals t := by
  induction s with
  | nil => rfl
  | cons c s ih =>
    obtain ⟨hc, hs⟩ := List.forall_mem_cons.1 hs
    rw [List.cons_append, openCapitals, if_neg (not_isUpper_of_isWordChar hc), ih hs]
    rfl

theorem openCapitals_word {w : Text} (hw : IsWord w) (s t : Text)
    (ih : openCapitals s = closeDigits t) :
    openCapitals (capitalize w ++ s) = closeDigits ('-' :: w ++ t) := by
  cases w with
  | nil => exact absurd rfl hw.ne_nil
  | cons c r =>
    obtain ⟨hc, hr⟩ := List.forall_mem_cons.1 hw.chars
    show openCapitals (c.toUpper :: (r ++ s)) = closeDigits ('-' :: ((c :: r) ++ t))
    rw [openCapitals, closeDigits, closeDigits_append hw.chars, openCapitals_append hr, ih]
    by_cases hd : c.isDigit = true
    · rw [toUpper_of_isDigit hd, if_neg (not_isUpper_of_isWordChar hc)]
      exact (if_pos ⟨rfl, hd⟩).symm
    · have hl : c.isLower = true := (Bool.or_eq_true_iff.1 hc).resolve_right hd
      have ha : c.isAlpha = true := Bool.or_eq_true_iff.2 (.inr hl)
      have hu : c.toUpper.isUpper = true := by rw [Char.isUpper_toUpper_eq_isAlpha]; exact ha
      rw [if_pos hu, if_neg (fun h => hd h.2), Char.toLower_toUpper_eq_toLower,
        toLower_of_isWordChar hc]
      rfl

theorem openCapitals_words {ws : List Text} (h : ∀ w ∈ ws, IsWord w) :
    openCapitals (ws.flatMap capitalize) = closeDigits (ws.flatMap ('-' :: ·)) := by
  induction ws with
  | nil => rfl
  | cons w ws ih =>
    obtain ⟨hw, hws⟩ := List.forall_mem_cons.1 h
    rw [List.flatMap_cons, List.flatMap_cons]
    exact openCapitals_word hw _ _ (ih hws)

theorem closeDigits_hyphen_inj {s t : Text} (h : closeDigits ('-' :: s) = closeDigits ('-' :: t)) :
    closeDigits s = closeDigits t := by
  have head : ∀ {s : Text}, s.head?.any Char.isDigit = true →
      (closeDigits s).head?.any Char.isDigit = true := by
    intro s hs
    cases s with
    | nil => exact hs
    | cons c r =>
      rw [closeDigits, if_neg]
      · exact hs
      · rintro ⟨rfl, -⟩
        exact Bool.false_ne_true hs
  rw [closeDigits, closeDigits] at h
  by_cases hs : s.head?.any Char.isDigit = true
  · by_cases ht : t.head?.any Char.isDigit = true
    · rwa [if_pos ⟨rfl, hs⟩, if_pos ⟨rfl, ht⟩] at h
    · rw [if_pos ⟨rfl, hs⟩, if_neg (fun e => ht e.2)] at h
      exact absurd (head hs) (by rw [h]; simp)
  · by_cases ht : t.head?.any Char.isDigit = true
    · rw [if_neg (fun e => hs e.2), if_pos ⟨rfl, ht⟩] at h
      exact absurd (head ht) (by rw [← h]; simp)
    · rw [if_neg (fun e => hs e.2), if_neg (fun e => ht e.2)] at h
      exact (List.cons.inj h).2

theorem words_eq_nil_iff (name : Text) : words name = [] ↔ pascal name = [] := by
  constructor
  · intro h
    rw [pascal, h]; rfl
  · intro h
    cases hw : words name with
    | nil => rfl
    | cons w ws =>
      have hm : w ∈ words name := by rw [hw]; exact List.mem_cons_self
      replace hm : IsWord w := isWord_of_mem_words hm
      cases w with
      | nil => exact absurd rfl hm.ne_nil
      | cons c r => rw [pascal, hw] at h; simp [capitalize] at h

/-- **Two names have one Pascal spelling when their kebab spellings differ in hyphens before digits
alone.** -/
theorem pascal_eq_iff (a b : Text) :
    pascal a = pascal b ↔ closeDigits (kebab a) = closeDigits (kebab b) := by
  constructor
  · intro h
    by_cases ha : words a = []
    · have hb : words b = [] := (words_eq_nil_iff b).2 (h ▸ (words_eq_nil_iff a).1 ha)
      rw [kebab, kebab, ha, hb]
    · have hb : words b ≠ [] := fun hb => ha ((words_eq_nil_iff a).2 (h ▸ (words_eq_nil_iff b).1 hb))
      have e : openCapitals (pascal a) = openCapitals (pascal b) := congrArg _ h
      rw [pascal, pascal, openCapitals_words fun w hw => isWord_of_mem_words hw,
        openCapitals_words fun w hw => isWord_of_mem_words hw, flatMap_hyphen ha,
        flatMap_hyphen hb] at e
      exact closeDigits_hyphen_inj e
  · intro h
    rw [pascal_eq_camelCase, pascal_eq_camelCase, ← camelCase_closeDigits, h,
      camelCase_closeDigits]

end MarkdownModule.Naming

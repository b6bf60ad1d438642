import Mathlib.Algebra.Ring.Nat
import Mathlib.Data.List.Basic
import MarkdownModule.Json.Reader
import MarkdownModule.Json.Writer
import MarkdownModule.Proofs.Text.Ends

/-!
# Lexemes are read as they are written

* `Json.Lexeme.text`         the characters of a number, from its parts
* `Json.NumberSpelling`      the grammar of numbers
* `Json.NumberSpelling.read` a number is read up to its end
* `Json.Lexeme.ofText_text`  the parts that are read are the ones that were written
-/

namespace MarkdownModule.Json

/-! ## the text of a lexeme -/

def Lexeme.text (l : Lexeme) : Text :=
  (if l.negative then ['-'] else []) ++ (l.integer ++
    ((l.fraction.map ('.' :: ·)).getD [] ++ (l.exponent.map exponentPart).getD []))

/-- a row of decimal digits that is not empty -/
structure DigitRow (ds : Text) : Prop where
  ne_nil : ds ≠ []
  digits : ∀ c ∈ ds, c.isDigit = true

/-- the parts of a number that a reader accepts -/
structure Lexeme.WellFormed (l : Lexeme) : Prop where
  integer : DigitRow l.integer
  /-- a zero stands alone before the point -/
  leading : l.integer.head? = some '0' → l.integer = ['0']
  fraction : ∀ ds ∈ l.fraction, DigitRow ds

/-! ## rows of digits -/

theorem digitsValue_eq (ds : Text) : digitsValue ds = Nat.ofDigitChars 10 ds 0 := by
  unfold digitsValue
  rw [Nat.ofDigitChars_eq_foldl]
  simp only [Nat.mul_comm 10]

theorem digitsValue_append (a b : Text) :
    digitsValue (a ++ b) = 10 ^ b.length * digitsValue a + digitsValue b := by
  rw [digitsValue_eq, digitsValue_eq, digitsValue_eq, Nat.ofDigitChars_append,
    Nat.ofDigitChars_eq_ofDigitChars_zero]

theorem digitsValue_natDigits (n : Nat) : digitsValue (natDigits n) = n := by
  rw [digitsValue_eq]
  exact Nat.ofDigitChars_ten_toDigits

theorem digitsValue_zeros (k : Nat) : digitsValue (List.replicate k '0') = 0 := by
  rw [digitsValue_eq, Nat.ofDigitChars_replicate_zero, Nat.mul_zero]

theorem digitRow_natDigits (n : Nat) : DigitRow (natDigits n) where
  ne_nil := List.ne_nil_of_length_pos Nat.length_toDigits_pos
  digits c hc := Nat.isDigit_of_mem_toDigits (by decide) (by decide) hc

theorem isDigit_of_mem_zeros {k : Nat} {c : Char} (h : c ∈ List.replicate k '0') :
    c.isDigit = true := by
  rw [(List.mem_replicate.1 h).2]
  rfl

/-- the digits of a number that is not zero begin with another digit -/
theorem head?_natDigits {n : Nat} (hn : n ≠ 0) : (natDigits n).head? ≠ some '0' := by
  induction n using Nat.strongRecOn with
  | ind n ih =>
    unfold natDigits
    by_cases h : n < 10
    · rw [Nat.toDigits_of_lt_base h]
      have hall : ∀ k < 10, k ≠ 0 → [Nat.digitChar k].head? ≠ some '0' := by decide
      exact hall n h hn
    · rw [Nat.toDigits_of_base_le (by decide) (Nat.le_of_not_lt h),
        List.head?_append_of_ne_nil _ Nat.toDigits_ne_nil]
      exact ih (n / 10) (by omega) (by omega)

/-! ## reading the parts -/

def EndsNumber (r : Text) : Prop :=
  ∀ c ∈ r.head?, c.isDigit = false ∧ c ≠ '.' ∧ c ≠ 'e' ∧ c ≠ 'E'

theorem spanDigits_append {ds r : Text} (hd : ∀ c ∈ ds, c.isDigit = true)
    (hr : ∀ c ∈ r.head?, c.isDigit = false) : spanDigits (ds ++ r) = (ds, r) :=
  Prod.ext (Text.span_of_forall hd hr).1 (Text.span_of_forall hd hr).2

theorem readInteger_append {ds r : Text} (h : DigitRow ds)
    (hlead : ds.head? = some '0' → ds = ['0']) (hr : ∀ c ∈ r.head?, c.isDigit = false) :
    readInteger (ds ++ r) = some (ds, r) := by
  unfold readInteger
  rw [spanDigits_append h.digits hr]
  dsimp only
  split
  · exact absurd rfl h.ne_nil
  · rfl
  · rename_i ds hne
    exact absurd (List.cons.inj (hlead rfl)).2 hne
  · rfl

theorem readFraction_point {ds r : Text} (h : DigitRow ds)
    (hr : ∀ c ∈ r.head?, c.isDigit = false) :
    readFraction ('.' :: (ds ++ r)) = some ('.' :: ds, r) := by
  show (if (spanDigits (ds ++ r)).1.isEmpty then none
    else some ('.' :: (spanDigits (ds ++ r)).1, (spanDigits (ds ++ r)).2)) = _
  rw [spanDigits_append h.digits hr]
  exact if_neg (by simp [h.ne_nil])

theorem readFraction_none {r : Text} (hr : ∀ c ∈ r.head?, c ≠ '.') :
    readFraction r = some ([], r) := by
  cases r with
  | nil => rfl
  | cons c r =>
    have hc : c ≠ '.' := hr c rfl
    unfold readFraction
    split
    · rename_i e
      exact absurd (List.cons.inj e).1 hc
    · rfl

/-- an exponent part is a letter, a sign and digits -/
theorem exponentPart_eq (e : Int) :
    ∃ s ds, exponentPart e = 'e' :: s :: ds ∧ DigitRow ds ∧
      (s = '+' ∧ e = digitsValue ds ∨ s = '-' ∧ e = -(digitsValue ds : Int)) := by
  unfold exponentPart
  cases e with
  | ofNat n =>
    refine ⟨'+', natDigits n, by rw [if_pos (show 0 ≤ Int.ofNat n from Int.natCast_nonneg n)]; rfl,
      digitRow_natDigits n,
      .inl ⟨rfl, ?_⟩⟩
    rw [digitsValue_natDigits]
    rfl
  | negSucc n =>
    refine ⟨'-', natDigits (n + 1), by rw [if_neg (by omega)]; rfl, digitRow_natDigits (n + 1),
      .inr ⟨rfl, ?_⟩⟩
    rw [digitsValue_natDigits]
    rfl

theorem readExponent_none {r : Text} (hr : ∀ c ∈ r.head?, c ≠ 'e' ∧ c ≠ 'E') :
    readExponent r = some ([], r) := by
  cases r with
  | nil => rfl
  | cons c r =>
    obtain ⟨h1, h2⟩ := hr c rfl
    unfold readExponent
    exact if_neg (by simp [h1, h2])

/-! ## the grammar of numbers -/

/-- a point with digits behind it, or nothing -/
inductive FractionText : Text → Prop
  | absent : FractionText []
  | present {ds : Text} (h : DigitRow ds) : FractionText ('.' :: ds)

/-- the sign of an exponent, or nothing -/
inductive SignText : Text → Prop
  | absent : SignText []
  | plus : SignText ['+']
  | minus : SignText ['-']

/-- a letter with a sign and digits behind it, or nothing -/
inductive ExponentText : Text → Prop
  | absent : ExponentText []
  | present {e : Char} {sign ds : Text} (he : e = 'e' ∨ e = 'E') (hs : SignText sign)
      (h : DigitRow ds) : ExponentText (e :: (sign ++ ds))

/-- a number without its sign; a zero stands alone before the point -/
inductive MagnitudeText : Text → Prop
  | mk {i f e : Text} (hi : DigitRow i) (hlead : i.head? = some '0' → i = ['0'])
      (hf : FractionText f) (he : ExponentText e) : MagnitudeText (i ++ (f ++ e))

inductive NumberSpelling : Text → Prop
  | positive {s : Text} (h : MagnitudeText s) : NumberSpelling s
  | negative {s : Text} (h : MagnitudeText s) : NumberSpelling ('-' :: s)

def EndsDigits (r : Text) : Prop := ∀ c ∈ r.head?, c.isDigit = false

theorem EndsNumber.endsDigits {r : Text} (h : EndsNumber r) : EndsDigits r := fun c hc => (h c hc).1

theorem ExponentText.read {e : Text} (h : ExponentText e) {r : Text} (hr : EndsNumber r) :
    readExponent (e ++ r) = some (e, r) := by
  cases h with
  | absent => exact readExponent_none fun c hc => ⟨(hr c hc).2.2.1, (hr c hc).2.2.2⟩
  | @present e sign ds he hs hds =>
    have hspan := spanDigits_append hds.digits hr.endsDigits
    have hne : ds.isEmpty = false := by simp [hds.ne_nil]
    have hletter : (e = 'e' || e = 'E') = true := by simpa using he
    have hdigit : ∀ c t, c.isDigit = false → ds ++ r ≠ c :: t := by
      intro c t hc e
      cases ds with
      | nil => exact hds.ne_nil rfl
      | cons d ds =>
        have := hds.digits d List.mem_cons_self
        rw [(List.cons.inj e).1, hc] at this
        exact nomatch this
    rw [List.cons_append]
    cases hs with
    | absent =>
      rw [List.nil_append, readExponent]
      · rw [if_pos hletter, hspan]
        dsimp only
        rw [hne]
        rfl
      · exact fun t => hdigit '+' t (by decide)
      · exact fun t => hdigit '-' t (by decide)
    | plus =>
      rw [List.cons_append, List.cons_append, List.nil_append, readExponent, if_pos hletter, hspan]
      dsimp only
      rw [hne]
      rfl
    | minus =>
      rw [List.cons_append, List.cons_append, List.nil_append, readExponent, if_pos hletter, hspan]
      dsimp only
      rw [hne]
      rfl

/-- the head of an exponent part that may be there, before a text that does not go on -/
theorem ExponentText.head {e : Text} (h : ExponentText e) {r : Text} (hr : EndsNumber r) :
    ∀ c ∈ (e ++ r).head?, c.isDigit = false ∧ c ≠ '.' := by
  intro c hc
  cases h with
  | absent => exact ⟨(hr c hc).1, (hr c hc).2.1⟩
  | present he _ _ =>
    rw [← Option.some.inj hc]
    rcases he with rfl | rfl
    · decide
    · decide

theorem MagnitudeText.read {s : Text} (h : MagnitudeText s) {r : Text} (hr : EndsNumber r) :
    readMagnitude (s ++ r) = some (s, r) := by
  cases h with
  | @mk i f e hi hlead hf he =>
    have hhead := he.head hr
    have hexponent := he.read hr
    have hfraction : readFraction (f ++ (e ++ r)) = some (f, e ++ r) := by
      cases hf with
      | absent => exact readFraction_none fun c hc => (hhead c hc).2
      | present hds => exact readFraction_point hds fun c hc => (hhead c hc).1
    have hends : EndsDigits (f ++ (e ++ r)) := by
      intro c hc
      cases hf with
      | absent => exact (hhead c hc).1
      | present _ =>
        rw [← Option.some.inj hc]
        decide
    have hinteger := readInteger_append hi hlead hends
    rw [List.append_assoc, List.append_assoc]
    unfold readMagnitude
    rw [hinteger]
    dsimp only [Option.bind_eq_bind, Option.bind_some]
    rw [hfraction]
    dsimp only [Option.bind_some]
    rw [hexponent, Option.bind_some, List.append_assoc]

theorem MagnitudeText.head {s : Text} (h : MagnitudeText s) :
    ∃ c t, s = c :: t ∧ c.isDigit = true := by
  cases h with
  | @mk i f e hi _ _ _ =>
    cases i with
    | nil => exact absurd rfl hi.ne_nil
    | cons c i => exact ⟨c, _, rfl, hi.digits c List.mem_cons_self⟩

theorem readNumber_minus (s : Text) :
    readNumber ('-' :: s) = (readMagnitude s).map fun t => ('-' :: t.1, t.2) := rfl

/-- **A number is read up to its end.** -/
theorem NumberSpelling.read {s : Text} (h : NumberSpelling s) {r : Text} (hr : EndsNumber r) :
    readNumber (s ++ r) = some (s, r) := by
  cases h with
  | positive h =>
    have hread := h.read hr
    obtain ⟨c, t, rfl, hc⟩ := h.head
    have hminus : c ≠ '-' := by
      rintro rfl
      exact absurd hc (by decide)
    rw [List.cons_append] at hread ⊢
    unfold readNumber
    split
    · next e => exact absurd (List.cons.inj e).1 hminus
    · exact hread
  | negative h =>
    rw [List.cons_append, readNumber_minus, h.read hr]
    rfl

theorem NumberSpelling.head {s : Text} (h : NumberSpelling s) :
    ∃ c t, s = c :: t ∧ (c = '-' ∨ c.isDigit = true) := by
  cases h with
  | positive h =>
    obtain ⟨c, t, rfl, hc⟩ := h.head
    exact ⟨c, t, rfl, .inr hc⟩
  | negative h => exact ⟨'-', _, rfl, .inl rfl⟩

/-! ## lexemes -/

/-- the head of an exponent part that may be there, before a text that does not go on -/
theorem head?_exponent {o : Option Int} {r : Text} {c : Char}
    (h : c ∈ ((o.map exponentPart).getD [] ++ r).head?) : c = 'e' ∨ c ∈ r.head? := by
  cases o with
  | none => exact .inr h
  | some e =>
    left
    exact (Option.some.inj h).symm

/-- the head of what stands behind the digits before the point -/
theorem head?_tail {f : Option Text} {o : Option Int} {r : Text} {c : Char}
    (h : c ∈ ((f.map ('.' :: ·)).getD [] ++ ((o.map exponentPart).getD [] ++ r)).head?) :
    c = '.' ∨ c = 'e' ∨ c ∈ r.head? := by
  cases f with
  | none => exact .inr (head?_exponent h)
  | some ds =>
    left
    exact (Option.some.inj h).symm

namespace Lexeme

variable {l : Lexeme}

/-- the characters of a lexeme are a number -/
theorem numberSpelling (h : l.WellFormed) : NumberSpelling l.text := by
  obtain ⟨negative, integer, fraction, exponent⟩ := l
  obtain ⟨hi, hlead, hf⟩ := h
  have hfraction : FractionText ((fraction.map ('.' :: ·)).getD []) := by
    cases fraction with
    | none => exact .absent
    | some ds => exact .present (hf ds rfl)
  have hexponent : ExponentText ((exponent.map exponentPart).getD []) := by
    cases exponent with
    | none => exact .absent
    | some e =>
      obtain ⟨s, ds, he, hds, hs⟩ := exponentPart_eq e
      show ExponentText (exponentPart e)
      rw [he]
      rcases hs with ⟨rfl, -⟩ | ⟨rfl, -⟩
      · exact .present (.inl rfl) .plus hds
      · exact .present (.inl rfl) .minus hds
  have hmagnitude := MagnitudeText.mk hi hlead hfraction hexponent
  cases negative with
  | true => exact .negative hmagnitude
  | false => exact .positive hmagnitude

/-- a digit is no minus sign -/
theorem head_ne_minus (h : DigitRow l.integer) {s t : Text} : l.integer ++ s ≠ '-' :: t := by
  intro e
  have hd := h.digits
  cases hi : l.integer with
  | nil => exact h.ne_nil hi
  | cons c ds =>
    rw [hi, List.cons_append] at e
    have := hd c (by rw [hi]; exact List.mem_cons_self)
    rw [(List.cons.inj e).1] at this
    exact absurd this (by decide)

theorem exponentValue?_part (o : Option Int) :
    exponentValue? ((o.map exponentPart).getD []) = o := by
  cases o with
  | none => rfl
  | some e =>
    obtain ⟨s, ds, he, -, hs⟩ := exponentPart_eq e
    rw [Option.map_some, Option.getD_some, he]
    rcases hs with ⟨rfl, rfl⟩ | ⟨rfl, rfl⟩
    · rfl
    · rfl

theorem takePoint_part {f : Option Text} (hf : ∀ ds ∈ f, DigitRow ds) (o : Option Int) :
    takePoint ((f.map ('.' :: ·)).getD [] ++ (o.map exponentPart).getD []) =
      (f, (o.map exponentPart).getD []) := by
  have hhead : ∀ c ∈ ((o.map exponentPart).getD []).head?, c = 'e' := by
    intro c hc
    rw [← List.append_nil ((o.map exponentPart).getD [])] at hc
    rcases head?_exponent hc with h | h
    · exact h
    · exact absurd h (by simp)
  cases f with
  | none =>
    simp only [Option.map_none, Option.getD_none, List.nil_append]
    unfold takePoint
    split
    · rename_i e
      exact absurd (hhead '.' (by rw [e]; rfl)) (by decide)
    · rfl
  | some ds =>
    have hspan := spanDigits_append (hf ds rfl).digits (r := (o.map exponentPart).getD [])
      fun c hc => by rw [hhead c hc]; rfl
    simp only [Option.map_some, Option.getD_some, List.cons_append]
    rw [takePoint, hspan]

theorem takeSign_text (h : DigitRow l.integer) :
    takeSign l.text = (l.negative, l.integer ++ ((l.fraction.map ('.' :: ·)).getD [] ++
      (l.exponent.map exponentPart).getD [])) := by
  unfold text
  cases l.negative with
  | true => rfl
  | false =>
    simp only [Bool.false_eq_true, if_false, List.nil_append]
    unfold takeSign
    split
    · rename_i e
      exact absurd e (head_ne_minus h)
    · rfl

/-- **The parts of a number are read as they are written.** -/
theorem ofText_text (h : l.WellFormed) : ofText l.text = l := by
  obtain ⟨hi, -, hf⟩ := h
  have hspan := spanDigits_append (r := (l.fraction.map ('.' :: ·)).getD [] ++
      (l.exponent.map exponentPart).getD []) hi.digits fun c hc => by
    rw [← List.append_nil (Option.getD (Option.map exponentPart l.exponent) [])] at hc
    rcases head?_tail hc with rfl | rfl | hc
    · rfl
    · rfl
    · exact absurd hc (by simp)
  unfold ofText
  dsimp only
  rw [takeSign_text hi]
  dsimp only
  rw [hspan]
  dsimp only
  rw [takePoint_part hf]
  dsimp only
  rw [exponentValue?_part]

end Lexeme

end MarkdownModule.Json

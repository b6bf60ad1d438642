import MarkdownModule.Proofs.Json.Quote
import MarkdownModule.Proofs.Markdown.Return.Text
import MarkdownModule.Proofs.Text.Utf8

/-!
# References to the carriage return

No name stands for the carriage return, so that a reference to it gives the number 13: `&#13;`, `&#xd;`
or `&#xD;`, perhaps with zeros before the digits.

* `SpellsReturn`                       a reference to the carriage return after its `&`
* `exists_spelled_of_refersToReturn`   a text that refers to the carriage return holds one
-/

namespace MarkdownModule.Markdown

/-! ## names -/

/-- the byte of a carriage return is in no other character -/
theorem plain_of_bytes {names : List (String × String)}
    (h : names.all (fun p => !p.2.toByteArray.data.toList.contains 13) = true) :
    ∀ p ∈ names, Plain p.2.toList := by
  intro p hp hmem
  have hbyte : (13 : UInt8) ∈ p.2.toByteArray.data.toList := by
    rw [Text.toList_toByteArray]
    exact List.mem_flatMap.2 ⟨'\r', hmem, by decide⟩
  have hnone := List.all_eq_true.1 h p hp
  rw [List.contains_iff_mem.2 hbyte] at hnone
  cases hnone

theorem plain_namesUnder (c : Char) : ∀ p ∈ Html.namesUnder c, Plain p.2.toList := by
  unfold Html.namesUnder
  split <;> exact plain_of_bytes (by decide +kernel)

theorem plain_namedText {name : Text} {v : String} (h : Html.namedText? name = some v) :
    Plain v.toList := by
  cases name with
  | nil => cases h
  | cons c name =>
    obtain ⟨before, after, hnames, -⟩ := List.lookup_eq_some_iff.1 h
    exact plain_namesUnder c _ (hnames ▸ List.mem_append_right before List.mem_cons_self)

/-! ## numerals -/

def hexDigits : Text := "0123456789abcdefABCDEF".toList

theorem mem_hexDigits {c : Char} (h : Html.isHexDigit c = true) : c ∈ hexDigits := by
  have hlt := Text.lt_of_isAlphanum (Json.isAlphanum_of_hexDigit? h)
  exact Text.forall_ascii (p := fun c => Html.isHexDigit c = true → c ∈ hexDigits)
    (by decide +kernel) hlt h

theorem forall_hexDigits {p : Char → Prop} [DecidablePred p]
    (h : hexDigits.all (fun c => decide (p c)) = true) : ∀ c ∈ hexDigits, p c :=
  fun c hc => of_decide_eq_true (List.all_eq_true.1 h c hc)

def digitValue (c : Char) : Nat := (Json.hexDigit? c).getD 0

section
variable {base : Nat} {ds : Text}

theorem numeralValue_concat (base : Nat) (ds : Text) (d : Char) :
    Html.numeralValue base (ds ++ [d]) = Html.numeralValue base ds * base + digitValue d := by
  rw [Html.numeralValue, List.foldl_append]
  rfl

/-- the last digit of a number and the number that the others write -/
theorem numeralValue_concat_eq {d : Char} {n : Nat} (hd : digitValue d < base)
    (h : Html.numeralValue base (ds ++ [d]) = n) :
    Html.numeralValue base ds = n / base ∧ digitValue d = n % base := by
  have hbase : 0 < base := Nat.zero_lt_of_lt hd
  rw [← h, numeralValue_concat, Nat.mul_comm, Nat.mul_add_div hbase, Nat.div_eq_of_lt hd,
    Nat.mul_add_mod, Nat.mod_eq_of_lt hd]
  exact ⟨rfl, rfl⟩

def DigitsOf (base : Nat) (ds : Text) : Prop := ∀ d ∈ ds, d ∈ hexDigits ∧ digitValue d < base

theorem zeros_of_numeralValue (hds : DigitsOf base ds) (h : Html.numeralValue base ds = 0) :
    ∃ k, ds = List.replicate k '0' := by
  have hzero : ∀ c ∈ hexDigits, digitValue c = 0 → c = '0' := forall_hexDigits (by decide +kernel)
  induction ds using List.reverseRecOn with
  | nil => exact ⟨0, rfl⟩
  | append_singleton ds d ih =>
    obtain ⟨hds, hd⟩ := List.forall_mem_append.1 hds
    obtain ⟨hhex, hlt⟩ := hd d List.mem_cons_self
    obtain ⟨hrest, hlast⟩ := numeralValue_concat_eq hlt h
    rw [Nat.zero_div] at hrest
    rw [Nat.zero_mod] at hlast
    obtain ⟨k, rfl⟩ := ih hds hrest
    exact ⟨k + 1, by rw [hzero d hhex hlast, List.replicate_succ']⟩

theorem decimal_of_numeralValue (hds : DigitsOf 10 ds) (h : Html.numeralValue 10 ds = 13) :
    ∃ k, ds = List.replicate k '0' ++ ['1', '3'] := by
  have hone : ∀ c ∈ hexDigits, digitValue c = 1 → c = '1' := forall_hexDigits (by decide +kernel)
  have hthree : ∀ c ∈ hexDigits, digitValue c = 3 → c = '3' := forall_hexDigits (by decide +kernel)
  rcases List.eq_nil_or_concat ds with rfl | ⟨es, d, rfl⟩
  · cases h
  rw [List.concat_eq_append] at *
  obtain ⟨hes, hd⟩ := List.forall_mem_append.1 hds
  obtain ⟨hhex, hlt⟩ := hd d List.mem_cons_self
  obtain ⟨hrest, hlast⟩ := numeralValue_concat_eq hlt h
  rcases List.eq_nil_or_concat es with rfl | ⟨fs, e, rfl⟩
  · cases hrest
  rw [List.concat_eq_append] at *
  obtain ⟨hfs, he⟩ := List.forall_mem_append.1 hes
  obtain ⟨hhex', hlt'⟩ := he e List.mem_cons_self
  obtain ⟨hrest', hlast'⟩ := numeralValue_concat_eq hlt' hrest
  obtain ⟨k, rfl⟩ := zeros_of_numeralValue hfs hrest'
  exact ⟨k, by rw [hone e hhex' hlast', hthree d hhex hlast, List.append_assoc]; rfl⟩

theorem hexadecimal_of_numeralValue (hds : DigitsOf 16 ds) (h : Html.numeralValue 16 ds = 13) :
    ∃ k, ∃ d ∈ ['d', 'D'], ds = List.replicate k '0' ++ [d] := by
  have hlast : ∀ c ∈ hexDigits, digitValue c = 13 → c ∈ ['d', 'D'] :=
    forall_hexDigits (by decide +kernel)
  rcases List.eq_nil_or_concat ds with rfl | ⟨es, d, rfl⟩
  · cases h
  rw [List.concat_eq_append] at *
  obtain ⟨hes, hd⟩ := List.forall_mem_append.1 hds
  obtain ⟨hhex, hlt⟩ := hd d List.mem_cons_self
  obtain ⟨hrest, hvalue⟩ := numeralValue_concat_eq hlt h
  obtain ⟨k, rfl⟩ := zeros_of_numeralValue hes hrest
  exact ⟨k, d, hlast d hhex hvalue, rfl⟩

end

/-! ## references -/

theorem charOfNumber_eq {n : Nat} (h : charOfNumber n = '\r') : n = 13 := by
  unfold charOfNumber at h
  split at h
  · next hscalar =>
    have hvalid : n.isValidChar := by
      simp only [Html.isScalar, Bool.and_eq_true, Bool.or_eq_true, decide_eq_true_eq] at hscalar
      unfold Nat.isValidChar
      omega
    rw [← Text.toNat_ofNat hvalid, h]
    rfl
  · cases h

theorem readNumber?_return {base most : Nat} {digit : Char → Bool} {s v r : Text}
    (h : readNumber? base most digit s = some (v, r)) (hv : '\r' ∈ v) :
    ∃ ds, s = ds ++ ';' :: r ∧ (∀ d ∈ ds, digit d = true) ∧ Html.numeralValue base ds = 13 := by
  obtain ⟨rest, hrest, h⟩ := Option.bind_eq_some_iff.1 h
  obtain ⟨w, rfl, -, hw, hspan⟩ := cut_of_dropWhile (afterSemicolon?_eq_some.1 hrest)
  rw [(hspan rest).1] at h
  split at h
  · cases h
  · cases h
    exact ⟨w, rfl, hw, charOfNumber_eq (List.mem_singleton.1 hv).symm⟩

/-- a reference to the carriage return after its `&`: a number in base 10 or 16 -/
inductive SpellsReturn : Text → Prop
  | decimal (k : Nat) : SpellsReturn ('#' :: List.replicate k '0' ++ ['1', '3', ';'])
  | hexadecimal (k : Nat) {x d : Char} (hx : x ∈ ['x', 'X']) (hd : d ∈ ['d', 'D']) :
      SpellsReturn ('#' :: x :: List.replicate k '0' ++ [d, ';'])

theorem spellsReturn_hexadecimal {s v r : Text} {x : Char} (hx : x ∈ ['x', 'X'])
    (h : readNumber? 16 6 Html.isHexDigit s = some (v, r)) (hv : '\r' ∈ v) :
    ∃ w, '#' :: x :: s = w ++ r ∧ SpellsReturn w := by
  have hlt : ∀ c ∈ hexDigits, digitValue c < 16 := forall_hexDigits (by decide +kernel)
  obtain ⟨ds, rfl, hds, hvalue⟩ := readNumber?_return h hv
  obtain ⟨k, d, hd, rfl⟩ := hexadecimal_of_numeralValue
    (fun c hc => ⟨mem_hexDigits (hds c hc), hlt c (mem_hexDigits (hds c hc))⟩) hvalue
  exact ⟨_, by simp, .hexadecimal k hx hd⟩

theorem spellsReturn_decimal {s v r : Text} (h : readNumber? 10 7 Char.isDigit s = some (v, r))
    (hv : '\r' ∈ v) : ∃ w, '#' :: s = w ++ r ∧ SpellsReturn w := by
  have hlt : ∀ c ∈ hexDigits, c.isDigit = true → digitValue c < 10 :=
    forall_hexDigits (by decide +kernel)
  have hhex : ∀ {c : Char}, c.isDigit = true → c ∈ hexDigits := by
    intro c hc
    refine mem_hexDigits ?_
    rw [Html.isHexDigit, Json.hexDigit?, if_pos hc]
    rfl
  obtain ⟨ds, rfl, hds, hvalue⟩ := readNumber?_return h hv
  obtain ⟨k, rfl⟩ := decimal_of_numeralValue
    (fun c hc => ⟨hhex (hds c hc), hlt c (hhex (hds c hc)) (hds c hc)⟩) hvalue
  exact ⟨_, by simp, .decimal k⟩

theorem spellsReturn_of_readReference? {s v r : Text} (h : readReference? s = some (v, r))
    (hv : '\r' ∈ v) : ∃ w, s = w ++ r ∧ SpellsReturn w := by
  unfold readReference? at h
  split at h
  · exact spellsReturn_hexadecimal (by decide) h hv
  · exact spellsReturn_hexadecimal (by decide) h hv
  · exact spellsReturn_decimal h hv
  · obtain ⟨rest, -, h⟩ := Option.bind_eq_some_iff.1 h
    obtain ⟨value, hvalue, e⟩ := Option.bind_eq_some_iff.1 h
    cases e
    exact absurd hv (plain_namedText hvalue)

/-- a text that refers to the carriage return holds such a reference -/
theorem exists_spelled_of_refersToReturn {s : Text} (h : refersToReturn s = true) :
    ∃ a w t, s = a ++ '&' :: w ++ t ∧ SpellsReturn w := by
  induction s with
  | nil => cases h
  | cons c s ih =>
    rcases refersToReturn_cons.1 h with h | h
    · rw [beginsReturn, Bool.and_eq_true, Option.any_eq_true, decide_eq_true_eq] at h
      obtain ⟨rfl, ⟨v, r⟩, hread, hv⟩ := h
      obtain ⟨w, rfl, hw⟩ := spellsReturn_of_readReference? hread (List.contains_iff_mem.1 hv)
      exact ⟨[], w, r, rfl, hw⟩
    · obtain ⟨a, w, t, rfl, hw⟩ := ih h
      exact ⟨c :: a, w, t, rfl, hw⟩

end MarkdownModule.Markdown

import MarkdownModule.Text.Bytes

/-!
# The bytes of a text

Every byte of a character beyond ASCII is beyond ASCII as well, so that a test which does not tell such
characters apart can be made on bytes.

* `Text.utf8`                 the bytes of the UTF-8 form
* `Text.onByte`               a test of characters, made on a byte as the character of its number
* `Text.onByte_of_mem`        it says of each byte what it says of the character
* `Text.takeWhile_utf8`       a run of bytes is the run of characters
-/

namespace MarkdownModule.Text

def utf8 (s : Text) : List UInt8 := s.flatMap String.utf8EncodeChar

theorem toByteArray_ofList (s : Text) : (String.ofList s).toByteArray = (utf8 s).toByteArray := rfl

theorem toList_toByteArray (v : String) : v.toByteArray.data.toList = utf8 v.toList := by
  have h := toByteArray_ofList v.toList
  rw [String.ofList_toList] at h
  rw [h]
  exact List.toList_data_toByteArray

theorem utf8_cons (c : Char) (s : Text) : utf8 (c :: s) = String.utf8EncodeChar c ++ utf8 s := rfl

theorem utf8_append (a b : Text) : utf8 (a ++ b) = utf8 a ++ utf8 b := List.flatMap_append

theorem length_utf8 (s : Text) : (utf8 s).length = byteSize s := by
  induction s with
  | nil => rfl
  | cons c s ih =>
    rw [utf8_cons, List.length_append, String.length_utf8EncodeChar, ih, byteSize_cons]

/-! ## bytes of one character -/

theorem utf8EncodeChar_of_lt {c : Char} (h : c.toNat < 128) :
    String.utf8EncodeChar c = [UInt8.ofNat c.toNat] := by
  have hle : c.val.toNat ≤ 127 := Nat.le_of_lt_succ h
  rw [String.utf8EncodeChar, if_pos hle]
  rfl

theorem utf8Size_of_lt {c : Char} (h : c.toNat < 128) : c.utf8Size = 1 := by
  rw [← String.length_utf8EncodeChar, utf8EncodeChar_of_lt h]
  rfl

theorem le_of_mem_utf8EncodeChar {c : Char} (h : 128 ≤ c.toNat) {b : UInt8}
    (hb : b ∈ String.utf8EncodeChar c) : 128 ≤ b.toNat := by
  have hmod : ∀ n, 128 ≤ n → n < 256 → 128 ≤ (UInt8.ofNat n).toNat := by
    intro n hn hlt
    rw [UInt8.toNat_ofNat', Nat.mod_eq_of_lt hlt]
    exact hn
  have hle : ¬ c.val.toNat ≤ 127 := by
    have : c.val.toNat = c.toNat := rfl
    omega
  rw [String.utf8EncodeChar, if_neg hle] at hb
  split at hb
  · simp only [List.mem_cons, List.not_mem_nil, or_false] at hb
    rcases hb with rfl | rfl <;> exact hmod _ (by omega) (by omega)
  split at hb
  · simp only [List.mem_cons, List.not_mem_nil, or_false] at hb
    rcases hb with rfl | rfl | rfl <;> exact hmod _ (by omega) (by omega)
  · simp only [List.mem_cons, List.not_mem_nil, or_false] at hb
    rcases hb with rfl | rfl | rfl | rfl <;> exact hmod _ (by omega) (by omega)

/-! ## tests -/

/-- a test of characters, made on a byte as the character of its number -/
def onByte (p : Char → Bool) (b : UInt8) : Bool := p (Char.ofNat b.toNat)

/-- a test that does not tell characters beyond ASCII apart -/
def AsciiTest (p : Char → Bool) : Prop := ∃ v, ∀ c : Char, 128 ≤ c.toNat → p c = v

/-- what is checked number by number holds of the characters of ASCII -/
theorem forall_ascii {p : Char → Prop} (h : ∀ n < 128, p (Char.ofNat n)) {c : Char}
    (hc : c.toNat < 128) : p c := by
  have hp := h c.toNat hc
  rwa [Char.ofNat_toNat] at hp

theorem toNat_ofNat {n : Nat} (h : n.isValidChar) : (Char.ofNat n).toNat = n := by
  rw [Char.ofNat, dif_pos h]
  show (UInt32.ofNatLT n _).toNat = n
  rw [UInt32.toNat_ofNatLT]

theorem onByte_ofNat {c : Char} (h : c.toNat < 128) (p : Char → Bool) :
    onByte p (UInt8.ofNat c.toNat) = p c := by
  have hmod : (UInt8.ofNat c.toNat).toNat = c.toNat := by
    rw [UInt8.toNat_ofNat', Nat.mod_eq_of_lt (by omega)]
  rw [onByte, hmod, Char.ofNat_toNat]

/-- **A test says of each byte of a character what it says of the character.** -/
theorem onByte_of_mem {p : Char → Bool} (hp : AsciiTest p) {c : Char} {b : UInt8}
    (hb : b ∈ String.utf8EncodeChar c) : onByte p b = p c := by
  by_cases hc : c.toNat < 128
  · rw [utf8EncodeChar_of_lt hc, List.mem_singleton] at hb
    rw [hb, onByte_ofNat hc]
  · obtain ⟨v, hv⟩ := hp
    have hle := le_of_mem_utf8EncodeChar (by omega) hb
    have hvalid : b.toNat.isValidChar := .inl (Nat.lt_trans b.toNat_lt (by decide))
    rw [onByte, hv _ (by rw [toNat_ofNat hvalid]; exact hle), hv c (by omega)]

theorem AsciiTest.of_lt {p : Char → Bool} (h : ∀ c, p c = true → c.toNat < 128) : AsciiTest p := by
  refine ⟨false, fun c hc => ?_⟩
  rw [Bool.eq_false_iff]
  intro hp
  have := h c hp
  omega

theorem asciiTest_eq {d : Char} (h : d.toNat < 128) : AsciiTest (· = d) := by
  refine .of_lt fun c hc => ?_
  rw [of_decide_eq_true hc]
  exact h

theorem lt_of_isAlphanum {c : Char} (h : c.isAlphanum = true) : c.toNat < 128 := by
  have hto : ∀ z : Char, c.val ≤ z.val → z.toNat < 128 → c.toNat < 128 :=
    fun z hle hz => Nat.lt_of_le_of_lt hle hz
  rcases Bool.or_eq_true_iff.1 h with hletter | hdigit
  · rcases Bool.or_eq_true_iff.1 hletter with hupper | hlower
    · exact hto 'Z' (of_decide_eq_true hupper).2 (by decide)
    · exact hto 'z' (of_decide_eq_true (Bool.and_eq_true_iff.1 hlower).2) (by decide)
  · exact hto '9' (of_decide_eq_true (Bool.and_eq_true_iff.1 hdigit).2) (by decide)

theorem asciiTest_isAlpha : AsciiTest Char.isAlpha :=
  .of_lt fun c h => lt_of_isAlphanum (by rw [Char.isAlphanum, h]; rfl)

theorem AsciiTest.or {p q : Char → Bool} (hp : AsciiTest p) (hq : AsciiTest q) :
    AsciiTest fun c => p c || q c := by
  obtain ⟨v, hv⟩ := hp
  obtain ⟨w, hw⟩ := hq
  refine ⟨v || w, fun c hc => ?_⟩
  show (p c || q c) = (v || w)
  rw [hv c hc, hw c hc]

theorem AsciiTest.not {p : Char → Bool} (hp : AsciiTest p) : AsciiTest fun c => !p c := by
  obtain ⟨v, hv⟩ := hp
  refine ⟨!v, fun c hc => ?_⟩
  show (!p c) = !v
  rw [hv c hc]

theorem asciiTest_ne {d : Char} (h : d.toNat < 128) : AsciiTest (· ≠ d) := by
  obtain ⟨v, hv⟩ := (asciiTest_eq h).not
  refine ⟨v, fun c hc => ?_⟩
  rw [← hv c hc]
  exact decide_not

/-! ## runs of bytes -/

theorem exists_cons_utf8EncodeChar (c : Char) :
    ∃ b bs, String.utf8EncodeChar c = b :: bs :=
  List.exists_cons_of_ne_nil String.utf8EncodeChar_ne_nil

/-- **A run of bytes is the run of characters.** -/
theorem takeWhile_utf8 {p : Char → Bool} (hp : AsciiTest p) (s : Text) :
    (utf8 s).takeWhile (onByte p) = utf8 (s.takeWhile p) := by
  induction s with
  | nil => rfl
  | cons c s ih =>
    have hbytes : ∀ b ∈ String.utf8EncodeChar c, onByte p b = p c := fun b hb => onByte_of_mem hp hb
    rw [utf8_cons]
    by_cases hc : p c = true
    · rw [List.takeWhile_append_of_pos (fun b hb => (hbytes b hb).trans hc), ih,
        List.takeWhile_cons_of_pos hc, utf8_cons]
    · obtain ⟨b, bs, hb⟩ := exists_cons_utf8EncodeChar c
      have hno : ¬ onByte p b = true := by
        rw [hbytes b (by rw [hb]; exact List.mem_cons_self)]
        exact hc
      rw [hb, List.cons_append, List.takeWhile_cons_of_neg hno, List.takeWhile_cons_of_neg hc]
      rfl

end MarkdownModule.Text

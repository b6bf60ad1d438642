import MarkdownModule.Proofs.Json.RoundTrip
import MarkdownModule.Proofs.Script.StringLiteral
import MarkdownModule.Script.Module

/-!
# Literals of values in a script

The literal of a value is its JSON text with the line separators escaped.  Separators occur inside of
strings alone, so the escapes change neither the structure of the text nor the value that it denotes.

* `Script.BecomesLiteral`         a plain text and the inline text that escapes make of it
* `Script.becomesLiteral_write`   the JSON text of a value becomes its literal
* `Script.valueLiteral_faithful`  a literal denotes its value and stays on its line
-/

namespace MarkdownModule

/-! ## the characters of numbers -/

namespace Json

def isNumberChar (c : Char) : Bool := c.isDigit || c = '-' || c = '+' || c = '.' || c = 'e'

def NumberText (s : Text) : Prop := ∀ c ∈ s, isNumberChar c = true

theorem NumberText.append {s t : Text} (hs : NumberText s) (ht : NumberText t) :
    NumberText (s ++ t) := List.forall_mem_append.2 ⟨hs, ht⟩

theorem NumberText.cons {c : Char} {s : Text} (hc : isNumberChar c = true) (hs : NumberText s) :
    NumberText (c :: s) := List.forall_mem_cons.2 ⟨hc, hs⟩

theorem numberText_nil : NumberText [] := fun _ h => absurd h List.not_mem_nil

theorem numberText_of_digits {s : Text} (h : ∀ c ∈ s, c.isDigit = true) : NumberText s := by
  intro c hc
  unfold isNumberChar
  rw [h c hc]
  rfl

theorem numberText_zeros (k : Nat) : NumberText (List.replicate k '0') :=
  numberText_of_digits fun _ hc => isDigit_of_mem_zeros hc

theorem numberText_natDigits (n : Nat) : NumberText (natDigits n) :=
  numberText_of_digits (digitRow_natDigits n).digits

theorem numberText_intDigits (n : Int) : NumberText (intDigits n) := by
  cases n with
  | ofNat k => exact numberText_natDigits k
  | negSucc k => exact .cons rfl (numberText_natDigits (k + 1))

theorem numberText_exponentPart (e : Int) : NumberText (exponentPart e) := by
  refine .cons rfl ?_
  split
  · exact .cons rfl (numberText_intDigits e)
  · exact numberText_intDigits e

section
variable {digits : Text} (h : NumberText digits)
include h

theorem numberText_plainForm (power : Int) : NumberText (plainForm digits power) := by
  unfold plainForm
  dsimp only
  split
  · exact (h.append (numberText_zeros _)).append (.cons rfl (.cons rfl numberText_nil))
  split
  · have hleft : NumberText (digits.take (digits.length - (-power).toNat)) :=
      fun c hc => h c (List.mem_of_mem_take hc)
    have hright : NumberText (digits.drop (digits.length - (-power).toNat)) :=
      fun c hc => h c (List.mem_of_mem_drop hc)
    exact hleft.append (.cons rfl hright)
  · have hpoint : NumberText "0.".toList := .cons rfl (.cons rfl numberText_nil)
    exact (hpoint.append (numberText_zeros _)).append h

theorem numberText_exponentForm (exponent : Int) : NumberText (exponentForm digits exponent) := by
  cases digits with
  | nil => exact numberText_nil
  | cons d more =>
    obtain ⟨hd, hmore⟩ := List.forall_mem_cons.1 h
    cases more with
    | nil => exact .cons hd (numberText_exponentPart exponent)
    | cons e more => exact .cons hd (.cons rfl (NumberText.append hmore (numberText_exponentPart _)))

end

/-- **A number is written with characters of numbers alone.** -/
theorem numberText_write (n : Number) : NumberText n.write := by
  cases n with
  | int n => exact numberText_intDigits n
  | float x =>
    show NumberText (writeFloat x)
    have hdecimal : ∀ d, NumberText (writeDecimal d) := by
      intro d
      unfold writeDecimal
      dsimp only
      split
      · exact numberText_plainForm (numberText_natDigits _) _
      · exact numberText_exponentForm (numberText_natDigits _) _
    have hsign : NumberText (if x.negative then ['-'] else []) := by
      split
      · exact .cons rfl numberText_nil
      · exact numberText_nil
    unfold writeFloat
    refine hsign.append ?_
    split
    · exact .cons rfl (.cons rfl (.cons rfl numberText_nil))
    · exact hdecimal _

end Json

/-! ## values -/

namespace Script

theorem isInline_of_isNumberChar {c : Char} (h : Json.isNumberChar c = true) :
    isInline c = true := by
  simp only [Json.isNumberChar, Bool.or_eq_true, decide_eq_true_eq] at h
  rcases h with (((h | rfl) | rfl) | rfl) | rfl
  · simp only [Char.isDigit, Bool.and_eq_true, decide_eq_true_eq] at h
    have hspace : ' ' ≤ c := Char.le_trans (by decide) h.1
    have hne : ∀ d : Char, '9' < d → c ≠ d := by
      rintro d hd rfl
      exact absurd h.2 (Char.not_le.2 hd)
    simp [isInline, hspace, hne '\u2028' (by decide), hne '\u2029' (by decide)]
  · rfl
  · rfl
  · rfl
  · rfl

/-- the literal is the plain text with its separators escaped, and keeps a script on its line -/
structure BecomesLiteral (plain literal : Text) : Prop where
  separators : escapeSeparators plain = literal
  inline : ∀ c ∈ literal, isInline c = true

theorem BecomesLiteral.append {s s' t t' : Text} (hs : BecomesLiteral s s')
    (ht : BecomesLiteral t t') : BecomesLiteral (s ++ t) (s' ++ t') where
  separators := by rw [escapeSeparators_append, hs.separators, ht.separators]
  inline := List.forall_mem_append.2 ⟨hs.inline, ht.inline⟩

theorem becomesLiteral_self {s : Text} (h : s.all isInline = true) : BecomesLiteral s s :=
  ⟨escapeSeparators_eq_self (List.all_eq_true.1 h), List.all_eq_true.1 h⟩

theorem BecomesLiteral.cons {c : Char} (hc : isInline c = true) {s s' : Text}
    (hs : BecomesLiteral s s') : BecomesLiteral (c :: s) (c :: s') :=
  (becomesLiteral_self (show [c].all isInline = true by simp [hc])).append hs

theorem becomesLiteral_quote (s : Text) :
    BecomesLiteral (Json.quote Json.escapeChar s) (Json.quote escapeChar s) :=
  ⟨escapeSeparators_quote s, inline_quote⟩

mutual

/-- **The JSON text of a value becomes its literal.** -/
theorem becomesLiteral_write : (v : Json.Value) →
    BecomesLiteral (v.write Json.escapeChar) (v.write escapeChar)
  | .null => by
    rw [Json.Value.write, Json.Value.write]
    exact becomesLiteral_self rfl
  | .bool true => by
    rw [Json.Value.write, Json.Value.write]
    exact becomesLiteral_self rfl
  | .bool false => by
    rw [Json.Value.write, Json.Value.write]
    exact becomesLiteral_self rfl
  | .number n => by
    rw [Json.Value.write, Json.Value.write]
    exact becomesLiteral_self (List.all_eq_true.2 fun c hc =>
      isInline_of_isNumberChar (Json.numberText_write n c hc))
  | .string s => by
    rw [Json.Value.write, Json.Value.write]
    exact becomesLiteral_quote s
  | .array items => by
    rw [Json.Value.write, Json.Value.write]
    exact ((becomesLiteral_writeItems items).cons rfl).append (becomesLiteral_self rfl)
  | .object members => by
    rw [Json.Value.write, Json.Value.write]
    exact ((becomesLiteral_writeMembers members).cons rfl).append (becomesLiteral_self rfl)

theorem becomesLiteral_writeItems : (vs : List Json.Value) →
    BecomesLiteral (Json.writeItems Json.escapeChar vs) (Json.writeItems escapeChar vs)
  | [] => by
    rw [Json.writeItems, Json.writeItems]
    exact becomesLiteral_self rfl
  | [v] => by
    rw [Json.writeItems, Json.writeItems]
    exact becomesLiteral_write v
  | v :: w :: rest => by
    rw [Json.writeItems, Json.writeItems]
    exact (becomesLiteral_write v).append ((becomesLiteral_writeItems (w :: rest)).cons rfl)

theorem becomesLiteral_writeMembers : (ms : List (Text × Json.Value)) →
    BecomesLiteral (Json.writeMembers Json.escapeChar ms) (Json.writeMembers escapeChar ms)
  | [] => by
    rw [Json.writeMembers, Json.writeMembers]
    exact becomesLiteral_self rfl
  | [(k, v)] => by
    rw [Json.writeMembers, Json.writeMembers]
    exact (becomesLiteral_quote k).append ((becomesLiteral_write v).cons rfl)
  | (k, v) :: m :: rest => by
    rw [Json.writeMembers, Json.writeMembers]
    exact ((becomesLiteral_quote k).append ((becomesLiteral_write v).cons rfl)).append
      ((becomesLiteral_writeMembers (m :: rest)).cons rfl)

end

/-! ## the exported frontmatter -/

namespace Module

theorem mem_putExport (name expression : Text) (es : List (Text × Text)) :
    (name, expression) ∈ putExport name expression es := by
  induction es with
  | nil => exact List.mem_cons_self
  | cons e es ih =>
    unfold putExport
    split
    · rename_i h
      rw [h]
      exact List.mem_cons_self
    · exact List.mem_cons_of_mem _ ih

theorem mem_lines_addExport (m : Module) (name expression : Text) :
    exportLine (name, expression) ∈ (m.addExport name expression).lines :=
  List.mem_append_right _ (List.mem_map_of_mem (mem_putExport name expression m.exports))

end Module

/-- **The literal of a value denotes the value, and the exported frontmatter stays on its line.** -/
theorem valueLiteral_faithful {v : Json.Value} (hv : v.WellFormed) :
    Json.decode? (valueLiteral v) = some v ∧
      (∀ c ∈ valueLiteral v, isInline c = true) ∧
      valueLiteral v = escapeSeparators v.toText ∧
      ∀ m : Module,
        let line := "export const attributes = ".toList ++ valueLiteral v ++ [';']
        line ∈ (m.addAttributes v).lines ∧ ∀ c ∈ line, isInline c = true := by
  have hwrite := becomesLiteral_write v
  refine ⟨Json.decode?_write readsBack_escapeChar hv, hwrite.inline, hwrite.separators.symm, ?_⟩
  intro m line
  have hline : line = Module.exportLine ("attributes".toList, valueLiteral v) := rfl
  have hstart : ∀ c ∈ "export const attributes = ".toList, isInline c = true :=
    List.all_eq_true.1 rfl
  refine ⟨hline ▸ m.mem_lines_addExport _ _, ?_⟩
  exact List.forall_mem_append.2
    ⟨List.forall_mem_append.2 ⟨hstart, hwrite.inline⟩, List.forall_mem_singleton.2 rfl⟩

/-- **A nested value with separators in a key and in a string.** -/
theorem valueLiteral_faithful_nested :
    let half : Json.Number := .float ⟨true, 4503599627370496, -53⟩
    let v : Json.Value := .object [("z\u2029".toList, .array [.number half, .string "a\u2028\n".toList]),
      ("a".toList, .object [("n".toList, .number (.int (-7))), ("m".toList, .null)])]
    v.WellFormed ∧
      valueLiteral v = "\x7b\"z\\u2029\":[-0.5,\"a\\u2028\\n\"],\"a\":\x7b\"n\":-7,\"m\":null\x7d\x7d".toList ∧
      Json.decode? (valueLiteral v) = some v ∧ ∀ c ∈ valueLiteral v, isInline c = true := by
  intro half v
  have hhalf : half.WellFormed := ⟨by decide +kernel, by decide, .inr ⟨by decide +kernel, by decide⟩⟩
  have hitems : ∀ w ∈ [Json.Value.number half, .string "a\u2028\n".toList], w.WellFormed :=
    List.forall_mem_cons.2 ⟨.number hhalf, List.forall_mem_singleton.2 (.string _)⟩
  have hseven : (Json.Number.int (-7)).WellFormed := show Json.fitsWord (-7) = true by decide
  have hmembers : ∀ m ∈ [("n".toList, Json.Value.number (.int (-7))), ("m".toList, .null)],
      m.2.WellFormed :=
    List.forall_mem_cons.2 ⟨.number hseven, List.forall_mem_singleton.2 .null⟩
  have hv : v.WellFormed := by
    refine .object (by decide) (List.forall_mem_cons.2 ⟨.array hitems, ?_⟩)
    exact List.forall_mem_singleton.2 (.object (by decide) hmembers)
  have h := valueLiteral_faithful hv
  exact ⟨hv, by decide +kernel, h.1, h.2.1⟩

end Script

end MarkdownModule

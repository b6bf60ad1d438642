import MarkdownModule.Text.Basic

/-!
# The end of a tag

A tag ends at the first `>` that stands in no quoted value.  `Html.closeTag` reads characters and
gives the inside of the tag and the text after it; `Html.tagEnd?` reads bytes and gives a position.
-/

namespace MarkdownModule.Html

def isQuote (c : Char) : Bool := c = '"' || c = '\''

/-! ## characters -/

/-- `closeTag` inside a value quoted by `q`, or outside of one -/
def closeTagIn : Option Char → Text → Option (Text × Text)
  | _, [] => none
  | none, c :: r =>
    if c = '>' then some ([], r)
    else (closeTagIn (if isQuote c then some c else none) r).map fun t => (c :: t.1, t.2)
  | some q, c :: r =>
    (closeTagIn (if c = q then none else some q) r).map fun t => (c :: t.1, t.2)

/-- the text up to the `>` that ends a tag, and the text after that `>` -/
def closeTag (s : Text) : Option (Text × Text) := closeTagIn none s

theorem append_of_closeTagIn {q : Option Char} {s a b : Text}
    (h : closeTagIn q s = some (a, b)) : s = a ++ '>' :: b := by
  induction s generalizing q a with
  | nil => cases q <;> simp [closeTagIn] at h
  | cons c r ih =>
    cases q with
    | none =>
      simp only [closeTagIn] at h
      split at h
      · next hc => simp only [Option.some.injEq, Prod.mk.injEq] at h; simp [← h.1, ← h.2, hc]
      · obtain ⟨t, ht, e⟩ := Option.map_eq_some_iff.1 h
        simp only [Prod.mk.injEq] at e
        rw [ih (a := t.1) (by rw [ht, ← e.2]), ← e.1]; rfl
    | some q =>
      simp only [closeTagIn] at h
      obtain ⟨t, ht, e⟩ := Option.map_eq_some_iff.1 h
      simp only [Prod.mk.injEq] at e
      rw [ih (a := t.1) (by rw [ht, ← e.2]), ← e.1]; rfl

theorem append_of_closeTag {s a b : Text} (h : closeTag s = some (a, b)) :
    s = a ++ '>' :: b :=
  append_of_closeTagIn h

/-- the text after the end of a tag, or nothing when the tag does not end -/
def afterTag (s : Text) : Text := ((closeTag s).map (·.2)).getD []

theorem length_afterTag_le (s : Text) : (afterTag s).length ≤ s.length := by
  unfold afterTag
  cases h : closeTag s with
  | none => simp
  | some t =>
    have e := congrArg List.length (append_of_closeTag (a := t.1) (b := t.2) h)
    simp only [List.length_append, List.length_cons] at e
    simp only [Option.map_some, Option.getD_some]
    omega

/-! ## bytes -/

/-- the position of the ending `>` from `i` on, inside a value quoted by `q` or outside of one -/
def tagEndFrom (i : Nat) : Option UInt8 → List UInt8 → Option Nat
  | _, [] => none
  | some q, b :: r => tagEndFrom (i + 1) (if b = q then none else some q) r
  | none, b :: r =>
    if b = 0x22 || b = 0x27 then tagEndFrom (i + 1) (some b) r
    else if b = 0x3e then some i
    else tagEndFrom (i + 1) none r

/-- the position of the `>` that ends the tag at whose `<` the bytes begin -/
def tagEnd? : List UInt8 → Option Nat
  | [] => none
  | _ :: r => tagEndFrom 1 none r

end MarkdownModule.Html

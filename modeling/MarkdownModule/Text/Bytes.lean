import MarkdownModule.Text.Basic

/-!
# Positions counted in UTF-8 bytes

A position in a text is a number of bytes of its UTF-8 form.  `Text.byteSize` measures a text,
`Text.dropBytes?` finds the rest at a position and `Text.takeBytes?` the text before it, when the
position is a character boundary.
-/

namespace MarkdownModule.Text

/-- the number of bytes of the UTF-8 form -/
def byteSize : Text → Nat
  | [] => 0
  | c :: s => c.utf8Size + byteSize s

theorem byteSize_nil : byteSize [] = 0 := rfl

theorem byteSize_cons (c : Char) (s : Text) : byteSize (c :: s) = c.utf8Size + byteSize s := rfl

theorem byteSize_append (a b : Text) : byteSize (a ++ b) = byteSize a + byteSize b := by
  induction a with
  | nil => simp [byteSize]
  | cons c a ih => simp only [List.cons_append, byteSize_cons, ih]; omega

/-- the rest of the text from a byte position on, when that is a character boundary -/
def dropBytes? : Nat → Text → Option Text
  | 0, s => some s
  | _ + 1, [] => none
  | n + 1, c :: s => if c.utf8Size ≤ n + 1 then dropBytes? (n + 1 - c.utf8Size) s else none
termination_by _ s => s.length

theorem dropBytes?_byteSize (a b : Text) : dropBytes? (byteSize a) (a ++ b) = some b := by
  induction a with
  | nil => rw [byteSize_nil, List.nil_append, dropBytes?]
  | cons c a ih =>
    obtain ⟨n, hn⟩ : ∃ n, c.utf8Size = n + 1 := ⟨c.utf8Size - 1, by have := c.utf8Size_pos; omega⟩
    have hsize : byteSize (c :: a) = n + byteSize a + 1 := by rw [byteSize_cons, hn]; omega
    have hrest : n + byteSize a + 1 - c.utf8Size = byteSize a := by omega
    rw [hsize, List.cons_append, dropBytes?, if_pos (by omega), hrest, ih]

/-- the text before a byte position, when that is a character boundary -/
def takeBytes? (n : Nat) (s : Text) : Option Text :=
  (dropBytes? n s).map fun rest => s.take (s.length - rest.length)

/-- the text between two byte positions, when both are character boundaries in their order -/
def slice? (start stop : Nat) (s : Text) : Option Text :=
  if start ≤ stop then (dropBytes? start s).bind (takeBytes? (stop - start)) else none

end MarkdownModule.Text

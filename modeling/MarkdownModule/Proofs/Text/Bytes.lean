import MarkdownModule.Text.Bytes

/-!
# Parts of a text between byte positions

A byte position is a border between characters exactly when the text can be cut there.

* `Text.append_of_byteSize_le`     of two cuts of a text the earlier one leaves the rest of the later one
* `Text.dropBytes?_eq_some_iff`    the rest of a text from a position on
* `Text.slice?_eq_some_iff`        the part between two positions
-/

namespace MarkdownModule.Text

theorem eq_nil_of_byteSize {s : Text} (h : byteSize s = 0) : s = [] := by
  cases s with
  | nil => rfl
  | cons c r =>
    have hpos := c.utf8Size_pos
    rw [byteSize_cons] at h
    omega

/-- **Of two cuts of a text, the one at the smaller position is inside of the first part of the
other.** -/
theorem append_of_byteSize_le {a b c d : Text} (h : a ++ b = c ++ d)
    (hle : byteSize a ≤ byteSize c) : ∃ x, c = a ++ x ∧ b = x ++ d := by
  rcases List.append_eq_append_iff.1 h with ⟨x, hc, hb⟩ | ⟨x, ha, hd⟩
  · exact ⟨x, hc, hb⟩
  · have hx : x = [] := eq_nil_of_byteSize (by
      rw [ha, byteSize_append] at hle
      omega)
    rw [hx, List.append_nil] at ha
    rw [hx, List.nil_append] at hd
    exact ⟨[], by rw [ha, List.append_nil], hd.symm⟩

theorem dropBytes?_eq_some_iff {n : Nat} {s r : Text} :
    dropBytes? n s = some r ↔ ∃ a, s = a ++ r ∧ byteSize a = n := by
  constructor
  · intro h
    induction n, s using dropBytes?.induct with
    | case1 s =>
      rw [dropBytes?] at h
      exact ⟨[], Option.some.inj h, rfl⟩
    | case2 n =>
      rw [dropBytes?] at h
      exact absurd h.symm (Option.some_ne_none r)
    | case3 n c s hle ih =>
      rw [dropBytes?, if_pos hle] at h
      obtain ⟨a, rfl, ha⟩ := ih h
      exact ⟨c :: a, rfl, by rw [byteSize_cons]; omega⟩
    | case4 n c s hle =>
      rw [dropBytes?, if_neg hle] at h
      exact absurd h.symm (Option.some_ne_none r)
  · rintro ⟨a, rfl, rfl⟩
    exact dropBytes?_byteSize a r

theorem takeBytes?_byteSize (b c : Text) : takeBytes? (byteSize b) (b ++ c) = some b := by
  rw [takeBytes?, dropBytes?_byteSize, Option.map_some, List.length_append, Nat.add_sub_cancel,
    List.take_left]

theorem slice?_byteSize (a b c : Text) :
    slice? (byteSize a) (byteSize (a ++ b)) (a ++ (b ++ c)) = some b := by
  have hsize := byteSize_append a b
  rw [slice?, if_pos (by omega), dropBytes?_byteSize, Option.bind_some, hsize,
    Nat.add_sub_cancel_left, takeBytes?_byteSize]

/-- **The part of a text between two positions.** -/
theorem slice?_eq_some_iff {start stop : Nat} {s b : Text} :
    slice? start stop s = some b ↔
      ∃ a c, s = a ++ (b ++ c) ∧ byteSize a = start ∧ byteSize (a ++ b) = stop := by
  constructor
  · intro h
    unfold slice? at h
    split at h
    · obtain ⟨t, ht, htake⟩ := Option.bind_eq_some_iff.1 h
      obtain ⟨a, rfl, rfl⟩ := dropBytes?_eq_some_iff.1 ht
      obtain ⟨c, hc, hb⟩ := Option.map_eq_some_iff.1 htake
      obtain ⟨d, rfl, hd⟩ := dropBytes?_eq_some_iff.1 hc
      rw [List.length_append, Nat.add_sub_cancel, List.take_left] at hb
      exact ⟨a, c, by rw [hb], rfl, by rw [byteSize_append, ← hb, hd]; omega⟩
    · exact absurd h.symm (Option.some_ne_none b)
  · rintro ⟨a, c, rfl, rfl, rfl⟩
    exact slice?_byteSize a b c

end MarkdownModule.Text

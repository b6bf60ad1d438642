import MarkdownModule.Proofs.Outcome
import MarkdownModule.Proofs.Text.Bytes
import MarkdownModule.Proofs.Text.Cut
import MarkdownModule.Proofs.Text.Utf8

/-!
# Reading a text by places

A reader may hold a text as bytes and go through it by places that it counts in bytes: over single
bytes, over runs of them, or to a mark that it has found.  Such a reader fails when it reads a byte out
of range, when it takes a part between places that are out of order, out of range or inside of a
character, and when a step of its loop stays where it is.

* `Text.Fault`              the three failures
* `Text.testAt`             a test of the byte at a place, or the failure to read it
* `Text.slice`              a part of a text, or the failure to take it
* `Text.loop`               a loop over places, each of whose steps has to go on
* `Text.exists_slice_iff`   a part can be taken between two borders of characters in their order
* `Text.runEnd_eq`          a run of bytes that begins at a border of characters ends at one
* `Text.loop_pass`          bytes that a loop passes over one by one
-/

namespace MarkdownModule.Text

/-! ## readers -/

inductive Fault where
  /-- a byte that is read at a place where the text has none -/
  | index (place : Nat)
  /-- a part between two places that are not borders of characters in their order -/
  | slice (start stop : Nat)
  /-- a step of a loop that begins at a place and ends at that place or before it -/
  | stuck (place next : Nat)
deriving DecidableEq

/-- the part of a text between two places -/
def slice (s : Text) (start stop : Nat) : Except Fault Text :=
  match slice? start stop s with
  | some part => .ok part
  | none => .error (.slice start stop)

/-- the bytes of a text from a place on, which may be inside of a character -/
def bytesFrom (s : Text) (start : Nat) : Except Fault (List UInt8) :=
  if start ≤ byteSize s then .ok ((utf8 s).drop start) else .error (.slice start (byteSize s))

def byteAt (s : Text) (i : Nat) : Except Fault UInt8 :=
  match (utf8 s)[i]? with
  | some b => .ok b
  | none => .error (.index i)

/-- whether the byte at a place passes a test; the place has to be one of the text -/
def testAt (p : Char → Bool) (s : Text) (i : Nat) : Except Fault Bool := do
  let b ← byteAt s i
  return onByte p b

/-- whether a place is one of the text, and its byte, which is not read before that, passes a test -/
def holdsAt (p : Char → Bool) (s : Text) (i : Nat) : Except Fault Bool :=
  if i < byteSize s then testAt p s i else return false

/-- the first place from `i` on, but not behind `stop`, whose byte does not pass a test: the bytes are
read one by one, and none from `stop` on -/
def runEnd (p : Char → Bool) (s : Text) (i stop : Nat) : Except Fault Nat :=
  if i < stop then
    match testAt p s i with
    | .ok true => runEnd p s (i + 1) stop
    | .ok false => .ok i
    | .error f => .error f
  else .ok i
termination_by stop - i

/-- the place where a run ends that is looked for in the bytes from a place on -/
def runFrom (p : Char → Bool) (s : Text) (i : Nat) : Except Fault Nat := do
  let bytes ← bytesFrom s i
  return i + (bytes.takeWhile (onByte p)).length

def find? (mark s : Text) : Option Nat :=
  let t := cutAt (mark.isPrefixOf ·) s
  if t.2.isEmpty then none else some (byteSize t.1)

/-- a loop from the place `i` on to the end of a text of `size` bytes: a step gives the next place and
the state there -/
def loop {σ : Type} (size : Nat) (step : Nat → σ → Except Fault (Nat × σ)) (i : Nat) (s : σ) :
    Except Fault σ :=
  if i < size then
    match step i s with
    | .ok (j, t) => if i < j then loop size step j t else .error (.stuck i j)
    | .error f => .error f
  else .ok s
termination_by size - i

/-! ## parts -/

section
variable {s a r : Text} {i : Nat}

theorem byteSize_of_dropBytes? (h : dropBytes? i s = some r) : i + byteSize r = byteSize s := by
  obtain ⟨a, rfl, rfl⟩ := dropBytes?_eq_some_iff.1 h
  rw [byteSize_append]

/-- of two places of a text, the later one has the shorter rest behind it -/
theorem lt_of_length_lt {j : Nat} {t : Text} (h : dropBytes? i s = some r)
    (ht : dropBytes? j s = some t) (hlt : t.length < r.length) : i < j := by
  obtain ⟨a, ha, rfl⟩ := dropBytes?_eq_some_iff.1 h
  obtain ⟨b, hb, rfl⟩ := dropBytes?_eq_some_iff.1 ht
  refine Nat.not_le.1 fun hle => ?_
  obtain ⟨x, -, rfl⟩ := append_of_byteSize_le (hb.symm.trans ha) hle
  rw [List.length_append] at hlt
  omega

theorem lt_byteSize {c : Char} (h : dropBytes? i s = some (c :: r)) : i < byteSize s := by
  have hsize := byteSize_of_dropBytes? h
  have hpos := c.utf8Size_pos
  rw [byteSize_cons] at hsize
  omega

theorem dropBytes?_zero (s : Text) : dropBytes? 0 s = some s := dropBytes?_byteSize [] s

theorem dropBytes?_size (s : Text) : dropBytes? (byteSize s) s = some [] := by
  have h := dropBytes?_byteSize s []
  rwa [List.append_nil] at h

theorem dropBytes?_add (h : dropBytes? i s = some (a ++ r)) :
    dropBytes? (i + byteSize a) s = some r := by
  obtain ⟨b, rfl, rfl⟩ := dropBytes?_eq_some_iff.1 h
  rw [← byteSize_append, ← List.append_assoc, dropBytes?_byteSize]

theorem dropBytes?_cut {t : Text} (h : dropBytes? i s = some t) (hcut : a ++ r = t) :
    dropBytes? (i + byteSize a) s = some r := by
  subst hcut
  exact dropBytes?_add h

/-- places count on behind a part that is skipped -/
theorem dropBytes?_trans {j : Nat} {t : Text} (h : dropBytes? i s = some r)
    (ht : dropBytes? j r = some t) : dropBytes? (i + j) s = some t := by
  obtain ⟨b, rfl, rfl⟩ := dropBytes?_eq_some_iff.1 ht
  exact dropBytes?_add h

theorem slice_ok_iff {start stop : Nat} {part : Text} :
    slice s start stop = .ok part ↔
      ∃ a c, s = a ++ (part ++ c) ∧ byteSize a = start ∧ byteSize (a ++ part) = stop := by
  rw [← slice?_eq_some_iff, slice]
  cases slice? start stop s with
  | none => exact ⟨nofun, nofun⟩
  | some t => simp

/-- **A part can be taken when its borders are borders of characters, in their order.** -/
theorem exists_slice_iff {start stop : Nat} :
    (∃ part, slice s start stop = .ok part) ↔
      start ≤ stop ∧ (∃ t, dropBytes? start s = some t) ∧ ∃ t, dropBytes? stop s = some t := by
  constructor
  · rintro ⟨part, h⟩
    obtain ⟨a, c, rfl, rfl, rfl⟩ := slice_ok_iff.1 h
    refine ⟨?_, ⟨part ++ c, dropBytes?_byteSize a _⟩, c, ?_⟩
    · rw [byteSize_append]
      omega
    · rw [← List.append_assoc]
      exact dropBytes?_byteSize (a ++ part) c
  · rintro ⟨hle, ⟨t, ht⟩, u, hu⟩
    obtain ⟨a, hs, rfl⟩ := dropBytes?_eq_some_iff.1 ht
    obtain ⟨b, rfl, rfl⟩ := dropBytes?_eq_some_iff.1 hu
    obtain ⟨x, rfl, rfl⟩ := append_of_byteSize_le hs.symm hle
    exact ⟨x, slice_ok_iff.2 ⟨a, u, hs, rfl, rfl⟩⟩

/-- a place inside of a character is no border -/
example : slice "aé<".toList 2 3 = .error (.slice 2 3) := by cbv

theorem slice_of (h : dropBytes? i s = some (a ++ r)) : slice s i (i + byteSize a) = .ok a := by
  obtain ⟨b, rfl, rfl⟩ := dropBytes?_eq_some_iff.1 h
  exact slice_ok_iff.2 ⟨b, r, rfl, rfl, byteSize_append b a⟩

theorem slice_cut {t : Text} (h : dropBytes? i s = some t) (hcut : a ++ r = t) :
    slice s i (i + byteSize a) = .ok a := by
  subst hcut
  exact slice_of h

theorem slice_rest (h : dropBytes? i s = some r) : slice s i (byteSize s) = .ok r := by
  have hslice := slice_cut h (List.append_nil r)
  rwa [byteSize_of_dropBytes? h] at hslice

theorem drop_utf8 (h : dropBytes? i s = some r) : (utf8 s).drop i = utf8 r := by
  obtain ⟨a, rfl, rfl⟩ := dropBytes?_eq_some_iff.1 h
  rw [utf8_append, ← length_utf8, List.drop_left]

theorem bytesFrom_of (h : dropBytes? i s = some r) : bytesFrom s i = .ok (utf8 r) := by
  have hsize := byteSize_of_dropBytes? h
  rw [bytesFrom, if_pos (by omega), drop_utf8 h]

end

/-! ## single bytes and runs -/

section
variable {p : Char → Bool} {s a r : Text} {i : Nat}

theorem getElem?_utf8 (h : dropBytes? i s = some r) (k : Nat) : (utf8 s)[i + k]? = (utf8 r)[k]? := by
  rw [← drop_utf8 h, List.getElem?_drop]

/-- each byte of a character passes the tests that the character passes -/
theorem testAt_inside {c : Char} (hp : AsciiTest p) (h : dropBytes? i s = some (c :: r)) {k : Nat}
    (hk : k < c.utf8Size) : testAt p s (i + k) = .ok (p c) := by
  have hinside : k < (String.utf8EncodeChar c).length := by
    rw [String.length_utf8EncodeChar]
    exact hk
  obtain ⟨b, hb⟩ : ∃ b, (String.utf8EncodeChar c)[k]? = some b :=
    ⟨_, List.getElem?_eq_getElem hinside⟩
  have hbyte : (utf8 s)[i + k]? = some b := by
    rw [getElem?_utf8 h, utf8_cons, List.getElem?_append_left hinside, hb]
  rw [testAt, byteAt, hbyte, ok_bind, onByte_of_mem hp (List.mem_of_getElem? hb)]
  rfl

theorem testAt_eq {c : Char} (hp : AsciiTest p) (h : dropBytes? i s = some (c :: r)) :
    testAt p s i = .ok (p c) :=
  testAt_inside hp h c.utf8Size_pos

theorem holdsAt_eq (hp : AsciiTest p) (h : dropBytes? i s = some r) :
    holdsAt p s i = .ok (r.head?.any p) := by
  cases r with
  | nil =>
    have hsize := byteSize_of_dropBytes? h
    rw [byteSize_nil] at hsize
    exact if_neg (by omega)
  | cons c r =>
    rw [holdsAt, if_pos (lt_byteSize h), testAt_eq hp h]
    rfl

/-- behind the last byte nothing passes a test, and a byte that is read there is a fault -/
example : holdsAt Char.isAlpha "a".toList 1 = .ok false ∧
    testAt Char.isAlpha "a".toList 1 = .error (.index 1) := ⟨rfl, rfl⟩

/-- a run passes over bytes one by one -/
theorem runEnd_pass {stop : Nat} (n : Nat) (hstop : i + n ≤ stop)
    (h : ∀ k < n, testAt p s (i + k) = .ok true) : runEnd p s i stop = runEnd p s (i + n) stop := by
  induction n with
  | zero => rfl
  | succ n ih =>
    rw [ih (by omega) fun k hk => h k (by omega), runEnd, if_pos (by omega),
      h n (Nat.lt_succ_self n)]
    rfl

theorem runEnd_before (hp : AsciiTest p) (h : dropBytes? i s = some (a ++ r)) :
    runEnd p s i (i + byteSize a) = .ok (i + byteSize (a.takeWhile p)) := by
  induction a generalizing i with
  | nil =>
    rw [runEnd]
    exact if_neg (Nat.lt_irrefl i)
  | cons c a ih =>
    have hpos := c.utf8Size_pos
    rw [byteSize_cons]
    by_cases hc : p c = true
    · have hpass : ∀ k < c.utf8Size, testAt p s (i + k) = .ok true := fun k hk => by
        rw [testAt_inside hp h hk, hc]
      rw [runEnd_pass c.utf8Size (by omega) hpass, List.takeWhile_cons_of_pos hc, byteSize_cons,
        ← Nat.add_assoc, ← Nat.add_assoc]
      exact ih (dropBytes?_add (a := [c]) h)
    · rw [runEnd, if_pos (by omega), testAt_eq hp h, Bool.eq_false_iff.2 hc,
        List.takeWhile_cons_of_neg hc]
      rfl

/-- **A run of bytes that begins at a border of characters ends at one.** -/
theorem runEnd_eq (hp : AsciiTest p) (h : dropBytes? i s = some r) :
    runEnd p s i (byteSize s) = .ok (i + byteSize (r.takeWhile p)) := by
  rw [← byteSize_of_dropBytes? h]
  exact runEnd_before (r := []) hp (by rw [List.append_nil]; exact h)

theorem runFrom_eq (hp : AsciiTest p) (h : dropBytes? i s = some r) :
    runFrom p s i = .ok (i + byteSize (r.takeWhile p)) := by
  rw [runFrom, bytesFrom_of h, ok_bind, takeWhile_utf8 hp, length_utf8]
  rfl

theorem dropBytes?_run (p : Char → Bool) (h : dropBytes? i s = some r) :
    dropBytes? (i + byteSize (r.takeWhile p)) s = some (r.dropWhile p) :=
  dropBytes?_cut h List.takeWhile_append_dropWhile

theorem slice_run (p : Char → Bool) (h : dropBytes? i s = some r) :
    slice s i (i + byteSize (r.takeWhile p)) = .ok (r.takeWhile p) :=
  slice_cut h List.takeWhile_append_dropWhile

/-- one more byte behind a character of ASCII -/
theorem dropBytes?_succ {c : Char} (hc : c.toNat < 128) (h : dropBytes? i s = some (c :: r)) :
    dropBytes? (i + 1) s = some r := by
  have hone : byteSize [c] = 1 := by
    rw [byteSize_cons, utf8Size_of_lt hc]
    rfl
  rw [← hone]
  exact dropBytes?_add (a := [c]) h

/-- behind a run and the delimiter that ends it, or at the end of the text when nothing ends the run -/
theorem dropBytes?_delimiter {d : Char} (hd : d.toNat < 128) (h : dropBytes? i s = some r) :
    dropBytes? (min (i + byteSize (r.takeWhile (· ≠ d)) + 1) (byteSize s)) s =
      some ((r.dropWhile (· ≠ d)).drop 1) := by
  have hrest := dropBytes?_cut h (List.takeWhile_append_dropWhile (p := (· ≠ d)))
  have hsize := byteSize_of_dropBytes? hrest
  have hhead := List.head?_dropWhile_not (· ≠ d) r
  generalize r.dropWhile (· ≠ d) = t at hrest hsize hhead
  cases t with
  | nil =>
    rw [byteSize_nil] at hsize
    rw [Nat.min_eq_right (by omega)]
    exact dropBytes?_size s
  | cons c t =>
    obtain rfl : c = d := Decidable.of_not_not (of_decide_eq_false hhead)
    have hlt := lt_byteSize hrest
    rw [Nat.min_eq_left (by omega)]
    exact dropBytes?_succ hd hrest

end

/-! ## marks -/

/-- the text behind a mark is the text behind the place where the mark is found -/
theorem dropBytes?_find? (mark s : Text) :
    dropBytes? (((find? mark s).map (· + byteSize mark)).getD (byteSize s)) s =
      some (afterMark mark s) := by
  have hcut := cutAt_append (mark.isPrefixOf ·) s
  have hholds := holds_of_cutAt (mark.isPrefixOf ·) s
  unfold find? afterMark
  generalize cutAt (mark.isPrefixOf ·) s = t at hcut hholds
  obtain ⟨a, b⟩ := t
  subst hcut
  dsimp only at hholds ⊢
  cases b with
  | nil =>
    rw [List.isEmpty_nil, if_pos rfl, Option.map_none, Option.getD_none, List.drop_nil]
    exact dropBytes?_size _
  | cons c r =>
    obtain ⟨t, ht⟩ := List.isPrefixOf_iff_prefix.1 (hholds (List.cons_ne_nil c r))
    rw [List.isEmpty_cons, if_neg Bool.false_ne_true, Option.map_some, Option.getD_some, ← ht,
      List.drop_left]
    exact dropBytes?_add (dropBytes?_byteSize a (mark ++ t))

/-! ## loops -/

section
variable {σ : Type} {size i j : Nat} {step : Nat → σ → Except Fault (Nat × σ)} {s t : σ}

theorem loop_end (h : size ≤ i) : loop size step i s = .ok s := by
  rw [loop, if_neg (by omega)]

theorem loop_step (hi : i < size) (h : step i s = .ok (j, t)) (hj : i < j) :
    loop size step i s = loop size step j t := by
  rw [loop, if_pos hi, h]
  exact if_pos hj

/-- **A loop passes over bytes one by one.** -/
theorem loop_pass (n : Nat) (hsize : i + n ≤ size) (h : ∀ k < n, step (i + k) s = .ok (i + k + 1, s)) :
    loop size step i s = loop size step (i + n) s := by
  induction n with
  | zero => rfl
  | succ n ih =>
    rw [ih (by omega) fun k hk => h k (by omega)]
    exact loop_step (by omega) (h n (Nat.lt_succ_self n)) (by omega)

end

end MarkdownModule.Text

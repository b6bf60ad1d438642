import MarkdownModule.Html.Attribute
import MarkdownModule.Proofs.Text.Place

/-!
# Attributes by places

The attributes of a tag, read over the bytes of what stands between its name and its end.

* `Html.ByPlace.readAttributes`      the reader by places
* `Html.ByPlace.readAttributes_eq`   it gives the attributes that are read by characters
-/

namespace MarkdownModule.Html

open Text (AsciiTest byteSize byteSize_cons dropBytes? slice holdsAt runEnd runFrom loop Fault)

namespace ByPlace

/-! ## readers -/

/-- a value between quotes, of which the opening one is at a place, and the place behind it -/
def quotedValue (source : Text) (q : Char) (j : Nat) : Except Fault (Nat × Text) := do
  let stop ← runFrom (· ≠ q) source (j + 1)
  let value ← slice source (j + 1) stop
  return (min (stop + 1) (byteSize source), value)

def bareValue (source : Text) (j : Nat) : Except Fault (Nat × Text) := do
  let stop ← runEnd (!isSpace ·) source j (byteSize source)
  let value ← slice source j stop
  return (stop, value)

def attributeValue (source : Text) (j : Nat) : Except Fault (Nat × Text) := do
  if ← holdsAt (· = '"') source j then quotedValue source '"' j
  else if ← holdsAt (· = '\'') source j then quotedValue source '\'' j
  else bareValue source j

/-- the attribute whose name ends at a place, and the place behind it, when the place `j` is behind the
spaces that follow the name -/
def attributeOf (source name : Text) (stop j : Nat) : Except Fault (Nat × Attribute) := do
  if ← holdsAt (· = '=') source j then
    let start ← runEnd isSpace source (j + 1) (byteSize source)
    let (next, value) ← attributeValue source start
    return (next, ⟨name, some value⟩)
  else return (stop, ⟨name, none⟩)

/-- the attribute that begins at a place, and the place behind it -/
def attributeAt (source : Text) (i : Nat) : Except Fault (Nat × Attribute) := do
  let stop ← runEnd isAttributeNameChar source i (byteSize source)
  let name ← slice source i stop
  let sign ← runEnd isSpace source stop (byteSize source)
  attributeOf source name stop sign

/-- a step of the reader: what separates attributes, and then an attribute unless the text ends -/
def attributeStep (source : Text) (i : Nat) (read : List Attribute) :
    Except Fault (Nat × List Attribute) := do
  let start ← runEnd separatesAttributes source i (byteSize source)
  if byteSize source ≤ start then return (start, read)
  let (next, a) ← attributeAt source start
  return (next, read ++ [a])

def readAttributes (source : Text) : Except Fault (List Attribute) :=
  loop (byteSize source) (attributeStep source) 0 []

/-! ## tests -/

theorem asciiTest_isSpace : AsciiTest isSpace := by
  refine .of_lt fun c h => ?_
  simp only [isSpace, Bool.or_eq_true, decide_eq_true_eq] at h
  rcases h with (((rfl | rfl) | rfl) | rfl) | rfl <;> decide

theorem asciiTest_separatesAttributes : AsciiTest separatesAttributes :=
  asciiTest_isSpace.or (Text.asciiTest_eq (by decide))

theorem asciiTest_isAttributeNameChar : AsciiTest isAttributeNameChar := by
  obtain ⟨u, hu⟩ := asciiTest_isSpace
  obtain ⟨v, hv⟩ := Text.asciiTest_ne (d := '=') (by decide)
  obtain ⟨w, hw⟩ := Text.asciiTest_ne (d := '/') (by decide)
  refine ⟨!u && v && w, fun c hc => ?_⟩
  rw [← hu c hc, ← hv c hc, ← hw c hc]
  rfl

/-! ## heads -/

section
variable {q : Char} {s : Text}

theorem not_any_head (h : ∀ r, s = q :: r → False) : ¬ s.head?.any (· = q) = true := by
  intro hany
  obtain ⟨c, hc, hcq⟩ := (Option.any_eq_true _ _).1 hany
  obtain ⟨t, rfl⟩ := List.head?_eq_some_iff.1 hc
  exact h t (by rw [of_decide_eq_true hcq])

theorem exists_cons_of_any_head (h : s.head?.any (· = q) = true) : ∃ r, s = q :: r := by
  obtain ⟨c, hc, hcq⟩ := (Option.any_eq_true _ _).1 h
  obtain ⟨t, rfl⟩ := List.head?_eq_some_iff.1 hc
  exact ⟨t, by rw [of_decide_eq_true hcq]⟩

end

/-! ## values -/

section
variable {source s r : Text} {i j : Nat}

theorem quotedValue_eq {q : Char} (hq : q.toNat < 128)
    (h : dropBytes? j source = some (q :: r)) :
    ∃ next, quotedValue source q j = .ok (next, r.takeWhile (· ≠ q)) ∧
      dropBytes? next source = some ((r.dropWhile (· ≠ q)).drop 1) := by
  have hvalue := Text.dropBytes?_succ hq h
  refine ⟨_, ?_, Text.dropBytes?_delimiter hq hvalue⟩
  rw [quotedValue, Text.runFrom_eq (Text.asciiTest_ne hq) hvalue, ok_bind,
    Text.slice_run (· ≠ q) hvalue]
  rfl

theorem bareValue_eq (h : dropBytes? j source = some r) :
    ∃ next, bareValue source j = .ok (next, r.takeWhile (!isSpace ·)) ∧
      dropBytes? next source = some (r.dropWhile (!isSpace ·)) := by
  refine ⟨_, ?_, Text.dropBytes?_run (!isSpace ·) h⟩
  rw [bareValue, Text.runEnd_eq asciiTest_isSpace.not h, ok_bind, Text.slice_run (!isSpace ·) h]
  rfl

theorem readAttributeValue_eq (s : Text) :
    readAttributeValue s =
      if (s.dropWhile isSpace).head?.any (· = '"') then
        (((s.dropWhile isSpace).drop 1).takeWhile (· ≠ '"'),
          (((s.dropWhile isSpace).drop 1).dropWhile (· ≠ '"')).drop 1)
      else if (s.dropWhile isSpace).head?.any (· = '\'') then
        (((s.dropWhile isSpace).drop 1).takeWhile (· ≠ '\''),
          (((s.dropWhile isSpace).drop 1).dropWhile (· ≠ '\'')).drop 1)
      else ((s.dropWhile isSpace).takeWhile (!isSpace ·), (s.dropWhile isSpace).dropWhile (!isSpace ·)) := by
  unfold readAttributeValue
  split
  · next r e =>
    rw [e]
    rfl
  · next r e =>
    rw [e]
    rfl
  · next hdouble hsingle =>
    rw [if_neg (not_any_head hdouble), if_neg (not_any_head hsingle)]

/-- the value behind an `=` and its spaces is read where it begins -/
theorem attributeValue_eq (h : dropBytes? j source = some (s.dropWhile isSpace)) :
    ∃ next, attributeValue source j = .ok (next, (readAttributeValue s).1) ∧
      dropBytes? next source = some (readAttributeValue s).2 := by
  have hdouble := Text.holdsAt_eq (Text.asciiTest_eq (d := '"') (by decide)) h
  have hsingle := Text.holdsAt_eq (Text.asciiTest_eq (d := '\'') (by decide)) h
  rw [attributeValue, hdouble, ok_bind, hsingle, ok_bind, readAttributeValue_eq]
  generalize s.dropWhile isSpace = r at h
  split
  · next hq =>
    obtain ⟨t, rfl⟩ := exists_cons_of_any_head hq
    exact quotedValue_eq (by decide) h
  · split
    · next hq =>
      obtain ⟨t, rfl⟩ := exists_cons_of_any_head hq
      exact quotedValue_eq (by decide) h
    · exact bareValue_eq h

end

/-! ## attributes -/

section
variable {source s r : Text} {i : Nat} {read : List Attribute}

theorem readAttribute_eq (s : Text) :
    readAttribute s =
      if ((s.dropWhile isAttributeNameChar).dropWhile isSpace).head?.any (· = '=') then
        let value := readAttributeValue (((s.dropWhile isAttributeNameChar).dropWhile isSpace).drop 1)
        (⟨s.takeWhile isAttributeNameChar, some value.1⟩, value.2)
      else (⟨s.takeWhile isAttributeNameChar, none⟩, s.dropWhile isAttributeNameChar) := by
  unfold readAttribute
  dsimp only
  split
  · next r e =>
    rw [e]
    rfl
  · next e => rw [if_neg (not_any_head e)]

theorem attributeAt_eq (h : dropBytes? i source = some s) :
    ∃ next, attributeAt source i = .ok (next, (readAttribute s).1) ∧
      dropBytes? next source = some (readAttribute s).2 := by
  have hrest := Text.dropBytes?_run isAttributeNameChar h
  have hsign := Text.dropBytes?_run isSpace hrest
  have heq := Text.holdsAt_eq (Text.asciiTest_eq (d := '=') (by decide)) hsign
  rw [attributeAt, Text.runEnd_eq asciiTest_isAttributeNameChar h, ok_bind,
    Text.slice_run isAttributeNameChar h, ok_bind, Text.runEnd_eq asciiTest_isSpace hrest, ok_bind,
    attributeOf, heq, ok_bind, readAttribute_eq]
  generalize (s.dropWhile isAttributeNameChar).dropWhile isSpace = r at hsign
  split
  · next hq =>
    obtain ⟨t, rfl⟩ := exists_cons_of_any_head hq
    have hspace := Text.dropBytes?_succ (by decide) hsign
    obtain ⟨next, hnext, hbehind⟩ := attributeValue_eq (Text.dropBytes?_run isSpace hspace)
    refine ⟨next, ?_, hbehind⟩
    rw [Text.runEnd_eq asciiTest_isSpace hspace, ok_bind, hnext]
    rfl
  · exact ⟨_, rfl, hrest⟩

/-- the step at which nothing is left behind what separates attributes -/
theorem attributeStep_none (h : dropBytes? i source = some s)
    (hs : s.dropWhile separatesAttributes = []) :
    attributeStep source i read = .ok (byteSize source, read) := by
  have hstart := Text.dropBytes?_run separatesAttributes h
  rw [hs] at hstart
  have hsize := Text.byteSize_of_dropBytes? hstart
  rw [Text.byteSize_nil, Nat.add_zero] at hsize
  rw [attributeStep, Text.runEnd_eq asciiTest_separatesAttributes h, ok_bind, hsize]
  exact if_pos (Nat.le_refl _)

/-- the step at which an attribute stands there -/
theorem attributeStep_some {c : Char} {t : Text} (h : dropBytes? i source = some s)
    (hs : s.dropWhile separatesAttributes = c :: t) (read : List Attribute) :
    ∃ next, attributeStep source i read = .ok (next, read ++ [(readAttribute (c :: t)).1]) ∧
      dropBytes? next source = some (readAttribute (c :: t)).2 := by
  have hstart := Text.dropBytes?_run separatesAttributes h
  rw [hs] at hstart
  have hinside := Text.lt_byteSize hstart
  obtain ⟨next, hnext, hrest⟩ := attributeAt_eq hstart
  refine ⟨next, ?_, hrest⟩
  rw [attributeStep, Text.runEnd_eq asciiTest_separatesAttributes h, ok_bind, hnext]
  exact if_neg (Nat.not_le.2 hinside)

theorem readAttributes_dropWhile (s : Text) :
    Html.readAttributes (s.dropWhile separatesAttributes) = Html.readAttributes s := by
  induction s with
  | nil => rfl
  | cons c s ih =>
    by_cases hc : separatesAttributes c = true
    · rw [List.dropWhile_cons_of_pos hc, ih, Html.readAttributes, dif_pos hc]
    · rw [List.dropWhile_cons_of_neg hc]

end

/-- from a border of characters on, the reader gives the attributes of the text that stands there -/
theorem loop_attributeStep_eq (source : Text) (n : Nat) :
    ∀ {s : Text} {i : Nat} {read : List Attribute}, s.length ≤ n → dropBytes? i source = some s →
      loop (byteSize source) (attributeStep source) i read =
        .ok (read ++ Html.readAttributes s) := by
  induction n with
  | zero =>
    intro s i read hn h
    obtain rfl := List.length_eq_zero_iff.1 (Nat.le_zero.1 hn)
    have hsize := Text.byteSize_of_dropBytes? h
    rw [Html.readAttributes, List.append_nil]
    exact Text.loop_end (by rw [← hsize]; exact Nat.le_refl _)
  | succ n ih =>
    intro s i read hn h
    have hsuffix := (List.dropWhile_suffix (l := s) separatesAttributes).length_le
    have hhead := List.head?_dropWhile_not separatesAttributes s
    cases s with
    | nil => exact ih (Nat.zero_le n) h
    | cons c r =>
      have hlt := Text.lt_byteSize h
      rw [← readAttributes_dropWhile]
      cases ht : (c :: r).dropWhile separatesAttributes with
      | nil =>
        rw [Text.loop_step hlt (attributeStep_none h ht) hlt, Text.loop_end (Nat.le_refl _),
          Html.readAttributes, List.append_nil]
      | cons d t =>
        rw [ht] at hsuffix hhead
        obtain ⟨next, hstep, hrest⟩ := attributeStep_some h ht read
        have hshort := length_readAttribute_lt t hhead
        have hless : (readAttribute (d :: t)).2.length < (c :: r).length := by omega
        have hgo := Text.lt_of_length_lt h hrest hless
        have hd : ¬ separatesAttributes d = true := Bool.eq_false_iff.1 hhead
        rw [Text.loop_step hlt hstep hgo, ih (by omega) hrest, Html.readAttributes, dif_neg hd,
          List.append_assoc]
        rfl

/-- **The reader by places gives the attributes that are read by characters, and never fails.** -/
theorem readAttributes_eq (source : Text) :
    readAttributes source = .ok (Html.readAttributes source) :=
  loop_attributeStep_eq source source.length (Nat.le_refl _) (Text.dropBytes?_zero source)

end ByPlace

end MarkdownModule.Html

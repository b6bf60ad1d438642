import MarkdownModule.Html.StartTag
import MarkdownModule.Proofs.Html.TagEndPlace
import MarkdownModule.Proofs.Text.Place

/-!
# Start tags by places

The scan for start tags over the bytes of a document.  It steps over single bytes that are no `<`, also
inside of a character, and else from mark to mark.

* `Html.ByPlace.rawTextEnd`, `Html.ByPlace.startTagNames`   the readers by places
* `Html.ByPlace.rawTextEnd_eq`       the end of raw text is found in a copy in lower case
* `Html.ByPlace.startTagNames_eq`    the scan gives the names that are read by characters
-/

namespace MarkdownModule.Html

open Text (AsciiTest byteSize byteSize_cons byteSize_append dropBytes? slice bytesFrom testAt holdsAt
  runEnd find? loop Fault utf8)

namespace ByPlace

/-! ## readers -/

/-- the place where raw text ends that begins at `start` -/
def rawTextEnd (html : Text) (start : Nat) (name : Text) : Except Fault Nat := do
  let rest ← slice html start (byteSize html)
  return ((find? ('<' :: '/' :: name) (Text.lower rest)).map (start + ·)).getD (byteSize html)

/-- the place behind the tag whose `<` is at a place -/
def afterTag (html : Text) (i : Nat) : Except Fault Nat := do
  let bytes ← bytesFrom html i
  return ((tagEnd? bytes).map fun e => i + e + 1).getD (byteSize html)

/-- the place behind a comment, of whose opening `<!--` the text `inside` follows the first four
characters, which stand at a place -/
def afterComment (size i : Nat) (inside : Text) : Nat :=
  ((find? "-->".toList inside).map fun n => i + 4 + n + 3).getD size

/-- a step of the scan at a start tag -/
def nameStep (html : Text) (i : Nat) (names : List Text) : Except Fault (Nat × List Text) := do
  let stop ← runEnd isNameChar html (i + 1) (byteSize html)
  let name ← slice html (i + 1) stop
  let after ← afterTag html i
  if isListed scriptNames name then
    let next ← rawTextEnd html after (Text.lower name)
    return (next, names ++ [name])
  else return (after, names ++ [name])

def scanStep (html : Text) (i : Nat) (names : List Text) : Except Fault (Nat × List Text) := do
  if ← testAt (· ≠ '<') html i then return (i + 1, names)
  let rest ← slice html i (byteSize html)
  if "<!--".toList.isPrefixOf rest then
    let inside ← slice html (i + 4) (byteSize html)
    return (afterComment (byteSize html) i inside, names)
  else if ← holdsAt Char.isAlpha html (i + 1) then nameStep html i names
  else return (i + 1, names)

def startTagNames (html : Text) : Except Fault (List Text) :=
  loop (byteSize html) (scanStep html) 0 []

/-! ## raw text -/

theorem toNat_toLower_lt {c : Char} (h : c.toNat < 128) : c.toLower.toNat < 128 :=
  Text.forall_ascii (p := fun c => c.toLower.toNat < 128) (by decide +kernel) h

theorem toLower_of_le {c : Char} (h : 128 ≤ c.toNat) : c.toLower = c := by
  refine dif_neg ?_
  rintro ⟨-, hle⟩
  have hle : c.val.toNat ≤ 90 := hle
  have hval : c.val.toNat = c.toNat := rfl
  omega

theorem byteSize_lower (s : Text) : byteSize (Text.lower s) = byteSize s := by
  induction s with
  | nil => rfl
  | cons c s ih =>
    have hsize : c.toLower.utf8Size = c.utf8Size := by
      by_cases hc : c.toNat < 128
      · rw [Text.utf8Size_of_lt hc, Text.utf8Size_of_lt (toNat_toLower_lt hc)]
      · rw [toLower_of_le (Nat.le_of_not_lt hc)]
    show byteSize (c.toLower :: Text.lower s) = _
    rw [byteSize_cons, byteSize_cons, ih, hsize]

theorem cutAt_map {p q : Text → Bool} {f : Char → Char} (h : ∀ s, p (s.map f) = q s) (s : Text) :
    Text.cutAt p (s.map f) = ((Text.cutAt q s).1.map f, (Text.cutAt q s).2.map f) := by
  induction s with
  | nil => rfl
  | cons c s ih =>
    have hc := h (c :: s)
    rw [List.map_cons] at hc ⊢
    unfold Text.cutAt
    rw [hc]
    split
    · rfl
    · rw [ih]
      rfl

/-- the mark of an end tag begins a text in lower case where the end tag begins the text -/
theorem isPrefixOf_lower (name s : Text) :
    ('<' :: '/' :: name).isPrefixOf (s.map Char.toLower) = closesRawText name s := by
  rw [Bool.eq_iff_iff, List.isPrefixOf_iff_prefix, List.prefix_iff_eq_take, closesRawText, beq_iff_eq,
    Text.lower, List.map_take, eq_comm]
  rfl

/-- **The place of the end of raw text is the same in the copy in lower case.** -/
theorem rawTextEnd_eq {html s : Text} {start : Nat} (h : dropBytes? start html = some s) (name : Text) :
    rawTextEnd html start name = .ok (start + byteSize (cutRawText name s).1) := by
  have hcut := cutAt_map (isPrefixOf_lower name) s
  have hwhole := Text.cutAt_append (closesRawText name) s
  have hsize := Text.byteSize_of_dropBytes? h
  rw [rawTextEnd, Text.slice_rest h, ok_bind]
  show Except.ok (((find? _ (s.map Char.toLower)).map (start + ·)).getD (byteSize html)) = _
  rw [find?, hcut]
  unfold cutRawText
  generalize Text.cutAt (closesRawText name) s = t at hwhole
  obtain ⟨a, b⟩ := t
  subst hwhole
  dsimp only
  cases b with
  | nil =>
    rw [List.append_nil] at hsize
    rw [List.map_nil, List.isEmpty_nil, if_pos rfl, Option.map_none, Option.getD_none, hsize]
  | cons c r =>
    have hlower : byteSize (a.map Char.toLower) = byteSize a := byteSize_lower a
    rw [List.map_cons, List.isEmpty_cons, if_neg Bool.false_ne_true, Option.map_some,
      Option.getD_some, hlower]

theorem dropBytes?_rawTextEnd {html s : Text} {start : Nat} (h : dropBytes? start html = some s)
    (name : Text) : dropBytes? (start + byteSize (cutRawText name s).1) html =
      some (cutRawText name s).2 :=
  Text.dropBytes?_cut h (Text.cutAt_append (closesRawText name) s)

/-! ## tags and comments -/

theorem tagEnd?_of_closeTag {r inside rest : Text} (h : closeTag r = some (inside, rest)) :
    tagEnd? (utf8 ('<' :: r)) = some (byteSize ('<' :: inside)) := by
  rw [tagEnd?_utf8]
  show (closeTag r).map _ = _
  rw [h]
  rfl

theorem tagEnd?_of_closeTag_none {r : Text} (h : closeTag r = none) :
    tagEnd? (utf8 ('<' :: r)) = none := by
  rw [tagEnd?_utf8]
  show (closeTag r).map _ = _
  rw [h]
  rfl

section
variable {html r : Text} {i : Nat}

theorem afterTag_eq (h : dropBytes? i html = some ('<' :: r)) :
    ∃ j, afterTag html i = .ok j ∧ i < j ∧ dropBytes? j html = some (Html.afterTag r) := by
  rw [afterTag, Text.bytesFrom_of h]
  have hsize := Text.byteSize_of_dropBytes? h
  rw [byteSize_cons, Text.utf8Size_of_lt (by decide)] at hsize
  cases hclose : closeTag r with
  | none =>
    refine ⟨byteSize html, ?_, by omega, ?_⟩
    · show Except.ok (((tagEnd? _).map _).getD _) = _
      rw [tagEnd?_of_closeTag_none hclose]
      rfl
    · rw [afterTag_eq_nil hclose]
      exact Text.dropBytes?_size html
  | some t =>
    obtain ⟨inside, rest⟩ := t
    refine ⟨i + byteSize ('<' :: inside) + 1, ?_, by omega, ?_⟩
    · show Except.ok (((tagEnd? _).map _).getD _) = _
      rw [tagEnd?_of_closeTag hclose]
      rfl
    · rw [append_of_closeTag hclose] at h
      rw [Html.afterTag_eq hclose]
      exact Text.dropBytes?_succ (by decide) (Text.dropBytes?_add (a := '<' :: inside) h)

theorem dropBytes?_comment (h : dropBytes? i html = some ('<' :: r))
    (hmark : "!--".toList.isPrefixOf r = true) :
    dropBytes? (i + 4) html = some (r.drop 3) := by
  obtain ⟨t, rfl⟩ := List.isPrefixOf_iff_prefix.1 hmark
  exact Text.dropBytes?_add (a := "<!--".toList) h

theorem afterComment_eq (h : dropBytes? i html = some ('<' :: r))
    (hmark : "!--".toList.isPrefixOf r = true) :
    i < afterComment (byteSize html) i (r.drop 3) ∧
      dropBytes? (afterComment (byteSize html) i (r.drop 3)) html = some (Html.afterComment r) := by
  have hinside := dropBytes?_comment h hmark
  have hsize := Text.byteSize_of_dropBytes? hinside
  have hfind := Text.dropBytes?_trans hinside (Text.dropBytes?_find? "-->".toList (r.drop 3))
  have hplace : i + 4 + ((find? "-->".toList (r.drop 3)).map (· + byteSize "-->".toList)).getD
      (byteSize (r.drop 3)) = afterComment (byteSize html) i (r.drop 3) := by
    unfold afterComment
    cases find? "-->".toList (r.drop 3) with
    | none => exact hsize
    | some n => rfl
  rw [hplace] at hfind
  exact ⟨by omega, hfind⟩

end

/-! ## the scan -/

theorem asciiTest_isNameChar : AsciiTest isNameChar := by
  refine .of_lt fun c h => ?_
  simp only [isNameChar, Bool.or_eq_true, decide_eq_true_eq] at h
  rcases h with (((h | rfl) | rfl) | rfl) | rfl
  · exact Text.lt_of_isAlphanum h
  all_goals decide

section
variable {html r : Text} {i : Nat} {names : List Text}

/-- the scan steps over the bytes of a character -/
theorem loop_scanStep_plain {c : Char} (hc : c ≠ '<') (h : dropBytes? i html = some (c :: r)) :
    loop (byteSize html) (scanStep html) i names =
      loop (byteSize html) (scanStep html) (i + c.utf8Size) names := by
  have hsize := Text.byteSize_of_dropBytes? h
  rw [byteSize_cons] at hsize
  refine Text.loop_pass c.utf8Size (by omega) fun k hk => ?_
  have hbyte := Text.testAt_inside (Text.asciiTest_ne (d := '<') (by decide)) h hk
  rw [scanStep, hbyte, decide_eq_true hc]
  rfl

theorem testAt_lt (h : dropBytes? i html = some ('<' :: r)) :
    testAt (· ≠ '<') html i = .ok false :=
  Text.testAt_eq (Text.asciiTest_ne (by decide)) h

theorem scanStep_comment (h : dropBytes? i html = some ('<' :: r))
    (hmark : "!--".toList.isPrefixOf r = true) :
    scanStep html i names = .ok (afterComment (byteSize html) i (r.drop 3), names) := by
  rw [scanStep, testAt_lt h, Text.slice_rest h, Text.slice_rest (dropBytes?_comment h hmark)]
  exact if_pos hmark

theorem scanStep_stray (h : dropBytes? i html = some ('<' :: r))
    (hmark : ¬ "!--".toList.isPrefixOf r = true) (ha : ¬ r.head?.any Char.isAlpha = true) :
    scanStep html i names = .ok (i + 1, names) := by
  have hnext := Text.holdsAt_eq Text.asciiTest_isAlpha (Text.dropBytes?_succ (by decide) h)
  rw [Bool.eq_false_iff.2 ha] at hnext
  rw [scanStep, testAt_lt h, Text.slice_rest h, hnext]
  exact if_neg hmark

theorem nameStep_eq (names : List Text) (h : dropBytes? i html = some ('<' :: r)) :
    ∃ j, nameStep html i names = .ok (j, names ++ [r.takeWhile isNameChar]) ∧ i < j ∧
      dropBytes? j html =
        some (afterStartTag (r.takeWhile isNameChar) (r.dropWhile isNameChar)) := by
  obtain ⟨j, hj, hlt, hrest⟩ := afterTag_eq h
  have hbehind : dropBytes? (i + 1) html = some r := Text.dropBytes?_succ (by decide) h
  have hafter : Html.afterTag r = Html.afterTag (r.dropWhile isNameChar) := by
    rw [Html.afterTag, closeTag_eq_map, Option.map_map]
    rfl
  rw [nameStep, Text.runEnd_eq asciiTest_isNameChar hbehind, ok_bind,
    Text.slice_run isNameChar hbehind, ok_bind, hj, ok_bind]
  rw [hafter] at hrest
  unfold afterStartTag
  split
  · refine ⟨j + _, ?_, ?_, dropBytes?_rawTextEnd hrest _⟩
    · rw [rawTextEnd_eq hrest]
      rfl
    · omega
  · exact ⟨j, rfl, hlt, hrest⟩

theorem scanStep_name (h : dropBytes? i html = some ('<' :: r))
    (hmark : ¬ "!--".toList.isPrefixOf r = true) (ha : r.head?.any Char.isAlpha = true) :
    scanStep html i names = nameStep html i names := by
  have hnext := Text.holdsAt_eq Text.asciiTest_isAlpha (Text.dropBytes?_succ (by decide) h)
  rw [ha] at hnext
  rw [scanStep, testAt_lt h, Text.slice_rest h, hnext]
  exact if_neg hmark

end

/-- from a border of characters on, the scan reads the names of the text that stands there -/
theorem loop_scanStep_eq (html : Text) {s : Text} :
    ∀ {i : Nat} {names : List Text}, dropBytes? i html = some s →
      loop (byteSize html) (scanStep html) i names = .ok (names ++ Html.startTagNames s) := by
  induction s using Html.startTagNames.induct with
  | case1 =>
    intro i names h
    have hsize := Text.byteSize_of_dropBytes? h
    rw [Html.startTagNames, List.append_nil]
    exact Text.loop_end (by rw [← hsize]; exact Nat.le_refl _)
  | case2 c r hc ih =>
    intro i names h
    rw [loop_scanStep_plain hc h, Html.startTagNames, if_pos hc]
    exact ih (Text.dropBytes?_add (a := [c]) h)
  | case3 c r hc hmark ih =>
    intro i names h
    obtain rfl : c = '<' := not_not.1 hc
    obtain ⟨hlt, hrest⟩ := afterComment_eq h hmark
    rw [Text.loop_step (Text.lt_byteSize h) (scanStep_comment h hmark) hlt, Html.startTagNames, if_neg hc,
      if_pos hmark]
    exact ih hrest
  | case4 c r hc hmark ha name =>
    rename_i ih
    intro i names h
    obtain rfl : c = '<' := not_not.1 hc
    obtain ⟨j, hj, hlt, hrest⟩ := nameStep_eq names h
    rw [Text.loop_step (Text.lt_byteSize h) ((scanStep_name h hmark ha).trans hj) hlt, Html.startTagNames,
      if_neg hc, if_neg hmark, if_pos ha, ih hrest, List.append_assoc]
    rfl
  | case5 c r hc hmark ha ih =>
    intro i names h
    obtain rfl : c = '<' := not_not.1 hc
    rw [Text.loop_step (Text.lt_byteSize h) (scanStep_stray h hmark ha) (Nat.lt_succ_self i),
      Html.startTagNames, if_neg hc, if_neg hmark, if_neg ha]
    exact ih (Text.dropBytes?_succ (by decide) h)

/-- **The scan by places gives the names that are read by characters, and never fails.** -/
theorem startTagNames_eq (html : Text) : startTagNames html = .ok (Html.startTagNames html) :=
  loop_scanStep_eq html (Text.dropBytes?_zero html)

end ByPlace

end MarkdownModule.Html

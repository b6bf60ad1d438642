import MarkdownModule.Frontmatter
import MarkdownModule.Proofs.Text.Place

/-!
# Frontmatter by places

The search for a block of frontmatter over the bytes of a document.  The loop goes from line to line;
once a line closes the block, it goes to the end of the document with what it has found.

* `Frontmatter.ByPlace.cut`      the search by places
* `Frontmatter.ByPlace.cut_eq`   it finds what the lines of the document say
-/

namespace MarkdownModule.Frontmatter

open Text (byteSize byteSize_append dropBytes? slice runFrom loop Fault)

namespace ByPlace

/-! ## readers -/

def markSize (source : Text) : Nat :=
  if source.head? = some byteOrderMark then byteOrderMark.utf8Size else 0

/-- the line that begins at a place, and the place behind its line feed -/
def nextLine (s : Text) (start : Nat) : Except Fault (Text × Nat) := do
  let stop ← runFrom (· ≠ '\n') s start
  let line ← slice s start stop
  return (line, min (stop + 1) (byteSize s))

/-- a block, and the place behind its closing fence -/
abbrev Found := Option (Text × Nat)

/-- a step of the search for the end of a block that begins at the place `start` -/
def searchStep (s : Text) (start i : Nat) (found : Found) : Except Fault (Nat × Found) := do
  let (line, next) ← nextLine s i
  if isClosingFence line then
    let raw ← slice s start i
    return (byteSize s, some (raw, next))
  else return (next, found)

/-- what the search for a block says about a document, whose text behind its mark is `s` -/
def result (source : Text) : Found → Except Fault Cut
  | none => return .unterminated
  | some (raw, next) => do
    let body ← slice source (markSize source + next) (byteSize source)
    return .block raw body

def search (source s : Text) : Except Fault Cut := do
  let (line, start) ← nextLine s 0
  if isOpeningFence line then
    let found ← loop (byteSize s) (searchStep s start) start none
    result source found
  else return .none

def cut (source : Text) : Except Fault Cut :=
  if byteSize (dropMark source) = 0 then return .none else search source (dropMark source)

/-! ## lines -/

theorem dropBytes?_markSize (source : Text) :
    dropBytes? (markSize source) source = some (dropMark source) := by
  cases source with
  | nil => exact Text.dropBytes?_zero []
  | cons c r =>
    show dropBytes? (if some c = some byteOrderMark then _ else _) _ =
      some (if c = byteOrderMark then r else c :: r)
    by_cases hc : c = byteOrderMark
    · subst hc
      rw [if_pos rfl, if_pos rfl]
      exact Text.dropBytes?_byteSize [byteOrderMark] r
    · rw [if_neg (mt Option.some.inj hc), if_neg hc]
      exact Text.dropBytes?_zero (c :: r)

section
variable {s t : Text} {i start : Nat} {c : Char} {r : Text}

theorem nextLine_eq (h : dropBytes? i s = some (c :: r)) :
    ∃ next, nextLine s i = .ok ((cutLine (c :: r)).1, next) ∧ i < next ∧
      dropBytes? next s = some (cutLine (c :: r)).2 := by
  have hnext := Text.dropBytes?_delimiter (d := '\n') (by decide) h
  refine ⟨_, ?_, Text.lt_of_length_lt h hnext (length_cutLine_snd_lt c r), hnext⟩
  rw [nextLine, Text.runFrom_eq (Text.asciiTest_ne (by decide)) h, ok_bind,
    Text.slice_run (· ≠ '\n') h]
  rfl

/-! ## blocks -/

/-- what a search has found is what the lines behind a part of a block say -/
inductive Finds (s part : Text) : Cut → Found → Prop
  | unterminated : Finds s part .unterminated none
  | block {raw body : Text} {next : Nat} (h : dropBytes? next s = some body) :
      Finds s part (.block raw body) (some (part ++ raw, next))

theorem searchStep_closing {part : Text} (h : dropBytes? start s = some (part ++ c :: r))
    (hclose : isClosingFence (cutLine (c :: r)).1 = true) (found : Found) :
    ∃ next, searchStep s start (start + byteSize part) found =
        .ok (byteSize s, some (part, next)) ∧
      dropBytes? next s = some (cutLine (c :: r)).2 := by
  obtain ⟨next, hline, -, hnext⟩ := nextLine_eq (Text.dropBytes?_add h)
  refine ⟨next, ?_, hnext⟩
  rw [searchStep, hline]
  show (if isClosingFence (cutLine (c :: r)).1 then do
      let raw ← slice s start (start + byteSize part)
      return (byteSize s, some (raw, next))
    else _) = _
  rw [if_pos hclose, Text.slice_of h]
  rfl

theorem searchStep_line (start : Nat) (h : dropBytes? i s = some (c :: r))
    (hopen : ¬ isClosingFence (cutLine (c :: r)).1 = true) (found : Found) :
    ∃ next, searchStep s start i found = .ok (next, found) ∧ i < next ∧
      dropBytes? next s = some (cutLine (c :: r)).2 := by
  obtain ⟨next, hline, hlt, hnext⟩ := nextLine_eq h
  refine ⟨next, ?_, hlt, hnext⟩
  rw [searchStep, hline]
  exact if_neg hopen

theorem cutLine_eq_nil_or (s : Text) :
    (cutLine s).2 = [] ∨ (cutLine s).1 ++ '\n' :: (cutLine s).2 = s := by
  have hcut : (cutLine s).1 ++ s.dropWhile (· ≠ '\n') = s := List.takeWhile_append_dropWhile
  have hhead := List.head?_dropWhile_not (· ≠ '\n') s
  have hrest : (cutLine s).2 = (s.dropWhile (· ≠ '\n')).drop 1 := rfl
  rw [hrest]
  generalize s.dropWhile (· ≠ '\n') = t at hcut hhead ⊢
  cases t with
  | nil => exact .inl rfl
  | cons d t =>
    obtain rfl : d = '\n' := Decidable.of_not_not (of_decide_eq_false hhead)
    exact .inr hcut

/-- a line that does not close the block is a part of it -/
theorem Finds.line {part : Text} {found : Found}
    (hopen : ¬ isClosingFence (cutLine (c :: r)).1 = true)
    (h : Finds s (part ++ ((cutLine (c :: r)).1 ++ ['\n'])) (cutBlock (cutLine (c :: r)).2) found) :
    Finds s part (cutBlock (c :: r)) found := by
  rw [cutBlock, if_neg hopen]
  generalize cutBlock (cutLine (c :: r)).2 = behind at h
  cases h with
  | unterminated => exact .unterminated
  | @block raw body next h =>
    have hpart : part ++ ((cutLine (c :: r)).1 ++ ['\n']) ++ raw =
        part ++ ((cutLine (c :: r)).1 ++ '\n' :: raw) := by
      rw [List.append_assoc, List.append_assoc]
      rfl
    rw [hpart]
    exact .block h

/-- what the search finds behind a part of a block, when the text `t` stands there -/
def SearchesFrom (s : Text) (start : Nat) (t : Text) : Prop :=
  ∀ part, dropBytes? start s = some (part ++ t) →
    ∃ found, loop (byteSize s) (searchStep s start) (start + byteSize part) none = .ok found ∧
      Finds s part (cutBlock t) found

theorem SearchesFrom.nil : SearchesFrom s start [] := by
  intro part h
  have hsize := Text.byteSize_of_dropBytes? h
  rw [List.append_nil] at hsize
  refine ⟨none, Text.loop_end (by omega), ?_⟩
  rw [cutBlock]
  exact .unterminated

theorem SearchesFrom.closing (hclose : isClosingFence (cutLine (c :: r)).1 = true) :
    SearchesFrom s start (c :: r) := by
  intro part h
  have hlt := Text.lt_byteSize (Text.dropBytes?_add h)
  obtain ⟨next, hstep, hnext⟩ := searchStep_closing h hclose none
  refine ⟨some (part, next), ?_, ?_⟩
  · rw [Text.loop_step hlt hstep hlt]
    exact Text.loop_end (Nat.le_refl _)
  · rw [cutBlock, if_pos hclose]
    have hfinds : Finds s part (.block [] (cutLine (c :: r)).2) (some (part ++ [], next)) := .block hnext
    rwa [List.append_nil] at hfinds

theorem SearchesFrom.line (hopen : ¬ isClosingFence (cutLine (c :: r)).1 = true)
    (ih : SearchesFrom s start (cutLine (c :: r)).2) : SearchesFrom s start (c :: r) := by
  intro part h
  have hbehind := Text.dropBytes?_add h
  obtain ⟨next, hstep, hlt, hnext⟩ := searchStep_line start hbehind hopen none
  rw [Text.loop_step (Text.lt_byteSize hbehind) hstep hlt]
  rcases cutLine_eq_nil_or (c :: r) with hend | hline
  · rw [hend] at hnext
    have hsize := Text.byteSize_of_dropBytes? hnext
    refine ⟨none, Text.loop_end (by rw [← hsize]; exact Nat.le_refl _), ?_⟩
    rw [cutBlock, if_neg hopen, hend, cutBlock]
    exact .unterminated
  · have hcut : part ++ (c :: r) =
        part ++ ((cutLine (c :: r)).1 ++ ['\n']) ++ (cutLine (c :: r)).2 := by
      rw [List.append_assoc, List.append_assoc]
      exact congrArg (part ++ ·) hline.symm
    rw [hcut] at h
    have hplace := Text.byteSize_of_dropBytes? (Text.dropBytes?_add h)
    have hsize := Text.byteSize_of_dropBytes? hnext
    obtain ⟨found, hfound, hfinds⟩ := ih _ h
    obtain rfl : next = start + byteSize (part ++ ((cutLine (c :: r)).1 ++ ['\n'])) := by omega
    exact ⟨found, hfound, hfinds.line hopen⟩

/-- **The search finds what the lines say.** -/
theorem searchesFrom (s : Text) (start : Nat) (t : Text) : SearchesFrom s start t := by
  induction t using cutBlock.induct with
  | case1 => exact .nil
  | case2 c r hclose => exact .closing hclose
  | case3 c r hopen raw body hblock ih => exact .line hopen ih
  | case4 c r hopen hblock ih => exact .line hopen ih

end

/-! ## documents -/

theorem result_eq {source : Text} {found : Found} {said : Cut}
    (h : Finds (dropMark source) [] said found) : result source found = .ok said := by
  cases h with
  | unterminated => rfl
  | block h =>
    have hbody := Text.dropBytes?_trans (dropBytes?_markSize source) h
    rw [result, Text.slice_rest hbody]
    rfl

theorem search_eq {source : Text} {c : Char} {r : Text} (hsource : dropMark source = c :: r) :
    search source (c :: r) =
      .ok (if isOpeningFence (cutLine (c :: r)).1 then cutBlock (cutLine (c :: r)).2 else .none) := by
  obtain ⟨start, hline, -, hstart⟩ := nextLine_eq (Text.dropBytes?_zero (c :: r))
  rw [search, hline]
  show (if isOpeningFence (cutLine (c :: r)).1 then do
      let found ← loop (byteSize (c :: r)) (searchStep (c :: r) start) start none
      result source found
    else return .none) = _
  split
  · obtain ⟨found, hfound, hfinds⟩ := searchesFrom (c :: r) start (cutLine (c :: r)).2 [] hstart
    rw [Text.byteSize_nil, Nat.add_zero] at hfound
    rw [hfound]
    exact result_eq (by rw [hsource]; exact hfinds)
  · rfl

/-- **The search by places finds what the lines of a document say, and never fails.** -/
theorem cut_eq (source : Text) : cut source = .ok (Frontmatter.cut source) := by
  unfold cut Frontmatter.cut
  cases hs : dropMark source with
  | nil => rfl
  | cons c r =>
    have hlt := Text.lt_byteSize (Text.dropBytes?_zero (c :: r))
    rw [if_neg (by omega)]
    exact search_eq hs

end ByPlace

end MarkdownModule.Frontmatter

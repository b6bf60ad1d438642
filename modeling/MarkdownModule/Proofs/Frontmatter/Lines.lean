import Mathlib
import MarkdownModule.Frontmatter
import MarkdownModule.Proofs.Outcome
import MarkdownModule.Proofs.Text.Ends
import MarkdownModule.Text.Bytes

/-!
# The lines of a document and its frontmatter

* `Frontmatter.lines`           the lines of a text, each with the line feed that ends it
* `Frontmatter.Block`           a document cut at its fence lines
* `Frontmatter.Says`            what the YAML of a block says
* `Frontmatter.Extracts`        what the lines of a document say about its extraction
* `Frontmatter.extract_lines`   extraction does what the lines say, and loses nothing
-/

namespace MarkdownModule.Frontmatter

/-! ## lines -/

/-- the lines of a text, each with the line feed that ends it; the last one may have none -/
def lines : Text → List Text
  | [] => []
  | c :: r =>
    if c = '\n' then ['\n'] :: lines r
    else
      match lines r with
      | [] => [[c]]
      | l :: ls => (c :: l) :: ls

theorem flatten_lines (s : Text) : (lines s).flatten = s := by
  induction s with
  | nil => rfl
  | cons c r ih =>
    rw [lines]
    split
    · rename_i hc
      rw [List.flatten_cons, ih, hc]
      rfl
    · cases hl : lines r with
      | nil =>
        rw [hl] at ih
        rw [← ih]
        rfl
      | cons l ls =>
        rw [hl] at ih
        rw [← ih]
        rfl

/-- the end of a line: a line feed, or the end of the text -/
def EndsLine (feed rest : Text) : Prop := feed = ['\n'] ∨ feed = [] ∧ rest = []

theorem cutLine_cons_of_ne {c : Char} (h : c ≠ '\n') (r : Text) :
    cutLine (c :: r) = (c :: (cutLine r).1, (cutLine r).2) := by
  simp [cutLine, h]

/-- the first line of a text, and the lines of the rest -/
theorem lines_cutLine {s : Text} (h : s ≠ []) :
    ∃ feed, EndsLine feed (cutLine s).2 ∧
      lines s = ((cutLine s).1 ++ feed) :: lines (cutLine s).2 := by
  induction s with
  | nil => exact absurd rfl h
  | cons c r ih =>
    by_cases hc : c = '\n'
    · subst hc
      exact ⟨['\n'], .inl rfl, rfl⟩
    · rw [cutLine_cons_of_ne hc, lines, if_neg hc]
      by_cases hr : r = []
      · subst hr
        exact ⟨[], .inr ⟨rfl, rfl⟩, rfl⟩
      · obtain ⟨feed, hf, e⟩ := ih hr
        rw [e]
        exact ⟨feed, hf, rfl⟩

theorem feed_not_mem_cutLine (s : Text) : '\n' ∉ (cutLine s).1 := by
  have hall : (cutLine s).1.all (· ≠ '\n') = true := List.all_takeWhile
  intro h
  exact absurd (List.all_eq_true.1 hall _ h) (by decide)

/-- **Every line but the last ends in its line feed, and the last one ends there or with the text.** -/
theorem lines_shape (s : Text) : ∃ full last, lines s = full ++ last ∧
    (∀ l ∈ full, ∃ t, '\n' ∉ t ∧ l = t ++ ['\n']) ∧
    (last = [] ∨ ∃ t, t ≠ [] ∧ '\n' ∉ t ∧ last = [t]) := by
  induction s with
  | nil => exact ⟨[], [], rfl, fun _ h => absurd h List.not_mem_nil, .inl rfl⟩
  | cons c r ih =>
    obtain ⟨full, last, hl, hfull, hlast⟩ := ih
    rw [lines]
    by_cases hc : c = '\n'
    · rw [if_pos hc, hl]
      refine ⟨['\n'] :: full, last, rfl, List.forall_mem_cons.2 ⟨?_, hfull⟩, hlast⟩
      exact ⟨[], List.not_mem_nil, rfl⟩
    · have hmem : ∀ {t : Text}, '\n' ∉ t → '\n' ∉ c :: t :=
        fun ht h => (List.mem_cons.1 h).elim (fun e => hc e.symm) ht
      rw [if_neg hc, hl]
      cases full with
      | nil =>
        rcases hlast with rfl | ⟨t, -, ht, rfl⟩
        · refine ⟨[], [[c]], rfl, hfull, .inr ⟨[c], List.cons_ne_nil c [], ?_, rfl⟩⟩
          exact hmem List.not_mem_nil
        · exact ⟨[], [c :: t], rfl, hfull, .inr ⟨c :: t, List.cons_ne_nil c t, hmem ht, rfl⟩⟩
      | cons l ls =>
        obtain ⟨⟨t, ht, rfl⟩, hls⟩ := List.forall_mem_cons.1 hfull
        refine ⟨(c :: (t ++ ['\n'])) :: ls, last, rfl, List.forall_mem_cons.2 ⟨?_, hls⟩, hlast⟩
        exact ⟨c :: t, hmem ht, rfl⟩

/-! ## fences -/

/-- the characters that do not count at the end of a fence -/
def isPad (c : Char) : Bool := c = '\r' || c = ' ' || c = '\t'

/-- the line is a mark, then characters that do not count, then the end of the line -/
def IsFence (mark line : Text) : Prop :=
  ∃ pad, (∀ c ∈ pad, isPad c = true) ∧ (line = mark ++ pad ∨ line = mark ++ pad ++ ['\n'])

def Opens (line : Text) : Prop := IsFence "---".toList line

def Closes (line : Text) : Prop := IsFence "---".toList line ∨ IsFence "...".toList line

/-- a mark of fences: all of its characters count, and it is on one line -/
structure FenceMark (mark : Text) : Prop where
  last : ∀ c ∈ mark.getLast?, isPad c = false
  feed : '\n' ∉ mark

theorem fenceText_eq_iff {mark t feed rest : Text} (hm : FenceMark mark) (ht : '\n' ∉ t)
    (hf : EndsLine feed rest) : fenceText t = mark ↔ IsFence mark (t ++ feed) := by
  show Text.dropEndWhile isPad t = mark ↔ _
  rw [Text.dropEndWhile_eq_iff]
  constructor
  · rintro ⟨-, pad, rfl, hp⟩
    refine ⟨pad, hp, ?_⟩
    rcases hf with rfl | ⟨rfl, -⟩
    · exact .inr rfl
    · exact .inl (List.append_nil _)
  · rintro ⟨pad, hp, h⟩
    refine ⟨hm.last, pad, ?_, hp⟩
    have hfeed : '\n' ∉ mark ++ pad := by
      intro hmem
      rcases List.mem_append.1 hmem with h | h
      · exact hm.feed h
      · exact absurd (hp _ h) (by decide)
    rcases hf with rfl | ⟨rfl, -⟩
    · rcases h with h | h
      · exact absurd (h ▸ List.mem_append_right t List.mem_cons_self) hfeed
      · exact List.append_cancel_right h
    · rw [List.append_nil] at h
      rcases h with h | h
      · exact h
      · exact absurd (h ▸ List.mem_append_right _ List.mem_cons_self) ht

theorem fenceMark_hyphens : FenceMark "---".toList := ⟨by simp [isPad], by simp⟩

theorem fenceMark_dots : FenceMark "...".toList := ⟨by simp [isPad], by simp⟩

section
variable {t feed rest : Text} (ht : '\n' ∉ t) (hf : EndsLine feed rest)
include ht hf

theorem isOpeningFence_iff : isOpeningFence t = true ↔ Opens (t ++ feed) := by
  unfold isOpeningFence
  rw [beq_iff_eq, fenceText_eq_iff fenceMark_hyphens ht hf]
  rfl

theorem isClosingFence_iff : isClosingFence t = true ↔ Closes (t ++ feed) := by
  unfold isClosingFence
  rw [Bool.or_eq_true, beq_iff_eq, beq_iff_eq, fenceText_eq_iff fenceMark_hyphens ht hf,
    fenceText_eq_iff fenceMark_dots ht hf]
  rfl

end

/-! ## blocks by their lines -/

/-- without a closing fence no block ends -/
theorem cutBlock_open {s : Text} (h : ∀ l ∈ lines s, ¬ Closes l) : cutBlock s = .unterminated := by
  fun_induction cutBlock s with
  | case1 => rfl
  | case2 c r hc =>
    obtain ⟨feed, hf, e⟩ := lines_cutLine (List.cons_ne_nil c r)
    rw [e] at h
    exact absurd ((isClosingFence_iff (feed_not_mem_cutLine _) hf).1 hc) (h _ List.mem_cons_self)
  | case3 c r hc raw body hb ih =>
    obtain ⟨feed, hf, e⟩ := lines_cutLine (List.cons_ne_nil c r)
    rw [e] at h
    rw [ih fun l hl => h l (List.mem_cons_of_mem _ hl)] at hb
    exact nomatch hb
  | case4 c r hc hb ih =>
    obtain ⟨feed, hf, e⟩ := lines_cutLine (List.cons_ne_nil c r)
    rw [e] at h
    exact ih fun l hl => h l (List.mem_cons_of_mem _ hl)

/-- the first closing fence ends the block -/
theorem cutBlock_closed {s : Text} {raw rest : List Text} {closing : Text}
    (hs : lines s = raw ++ closing :: rest) (hr : ∀ l ∈ raw, ¬ Closes l) (hc : Closes closing) :
    cutBlock s = .block raw.flatten rest.flatten := by
  induction raw generalizing s with
  | nil =>
    cases s with
    | nil => simp [lines] at hs
    | cons c r =>
      obtain ⟨feed, hf, e⟩ := lines_cutLine (List.cons_ne_nil c r)
      obtain ⟨e1, e2⟩ := List.cons.inj (e.symm.trans hs)
      have hclose : isClosingFence (cutLine (c :: r)).1 = true :=
        (isClosingFence_iff (feed_not_mem_cutLine _) hf).2 (e1 ▸ hc)
      rw [cutBlock, if_pos hclose, ← e2, flatten_lines]
      rfl
  | cons l raw ih =>
    cases s with
    | nil => simp [lines] at hs
    | cons c r =>
      obtain ⟨feed, hf, e⟩ := lines_cutLine (List.cons_ne_nil c r)
      obtain ⟨e1, e2⟩ := List.cons.inj (e.symm.trans hs)
      obtain ⟨hl, hraw⟩ := List.forall_mem_cons.1 hr
      have hclose : ¬ isClosingFence (cutLine (c :: r)).1 = true := fun h =>
        hl (e1 ▸ (isClosingFence_iff (feed_not_mem_cutLine _) hf).1 h)
      have hfeed : feed = ['\n'] := by
        refine hf.resolve_right fun h => ?_
        rw [h.2] at e2
        exact absurd e2 (by simp [lines])
      rw [cutBlock, if_neg hclose, ih e2 hraw, List.flatten_cons, ← e1, hfeed]
      simp

/-- a document whose first line is no fence has no block -/
theorem cut_plain {source : Text} (h : ∀ l ∈ (lines (dropMark source)).head?, ¬ Opens l) :
    cut source = .none := by
  unfold cut
  cases hs : dropMark source with
  | nil => rfl
  | cons c r =>
    obtain ⟨feed, hf, e⟩ := lines_cutLine (List.cons_ne_nil c r)
    rw [hs, e] at h
    refine if_neg fun ho => h _ rfl ((isOpeningFence_iff (feed_not_mem_cutLine _) hf).1 ho)

/-- a document whose first line is a fence begins with a block -/
theorem cut_opened {source : Text} {opening : Text} {rest : List Text}
    (hs : lines (dropMark source) = opening :: rest) (ho : Opens opening) :
    ∃ t, lines t = rest ∧ cut source = cutBlock t := by
  unfold cut
  cases hd : dropMark source with
  | nil =>
    rw [hd] at hs
    exact nomatch hs
  | cons c r =>
    obtain ⟨feed, hf, e⟩ := lines_cutLine (List.cons_ne_nil c r)
    rw [hd] at hs
    obtain ⟨e1, e2⟩ := List.cons.inj (e.symm.trans hs)
    refine ⟨(cutLine (c :: r)).2, e2, if_pos ?_⟩
    exact (isOpeningFence_iff (feed_not_mem_cutLine _) hf).2 (e1 ▸ ho)

/-! ## documents by their lines -/

theorem exists_dropMark (source : Text) :
    ∃ mark, (mark = [] ∨ mark = [byteOrderMark]) ∧ source = mark ++ dropMark source := by
  cases source with
  | nil => exact ⟨[], .inl rfl, rfl⟩
  | cons c r =>
    rw [dropMark]
    by_cases h : c = byteOrderMark
    · exact ⟨[c], .inr (by rw [h]), by rw [if_pos h]; rfl⟩
    · exact ⟨[], .inl rfl, by rw [if_neg h]; rfl⟩

/-- a document cut at its fence lines, and its block cut where the line endings at its end begin -/
structure Block (source : Text) where
  /-- the byte order mark, or nothing -/
  mark : Text
  opening : Text
  raw : List Text
  closing : Text
  rest : List Text
  /-- the block without the line endings at its end -/
  text : Text
  endings : Text
  mark_or : mark = [] ∨ mark = [byteOrderMark]
  source_eq : source = mark ++ opening ++ raw.flatten ++ closing ++ rest.flatten
  lines_eq : lines (dropMark source) = opening :: (raw ++ closing :: rest)
  opens : Opens opening
  inside : ∀ l ∈ raw, ¬ Closes l
  closes : Closes closing
  text_append : text ++ endings = raw.flatten
  text_last : ∀ c ∈ text.getLast?, c ≠ '\r' ∧ c ≠ '\n'
  endings_all : ∀ c ∈ endings, c = '\r' ∨ c = '\n'

def Block.body {source : Text} (b : Block source) : Text := b.rest.flatten

/-- the place of the body, in bytes -/
def Block.offset {source : Text} (b : Block source) : Nat :=
  Text.byteSize (b.mark ++ b.opening ++ b.raw.flatten ++ b.closing)

/-- what the YAML of a block says: white space is not read and says nothing, as null does, and any
other value has to be an object -/
inductive Says (t : Text) : Except FrontmatterError Json.Value → Prop
  | blank (h : ∀ c ∈ t, isBlank c = true) : Says t (.ok (.object []))
  | null (h : ∃ c ∈ t, isBlank c = false) (hload : Yaml.load t = .ok .null) :
      Says t (.ok (.object []))
  | object {ms : List (Text × Json.Value)} (h : ∃ c ∈ t, isBlank c = false)
      (hload : Yaml.load t = .ok (.object ms)) : Says t (.ok (.object ms))
  | malformed {cause : Yaml.Error} (h : ∃ c ∈ t, isBlank c = false)
      (hload : Yaml.load t = .error cause) : Says t (.error (.malformed cause.message))
  | other {v : Json.Value} (h : ∃ c ∈ t, isBlank c = false) (hload : Yaml.load t = .ok v)
      (hnull : v ≠ .null) (hobject : ∀ ms, v ≠ .object ms) : Says t (.error .notMapping)

/-- what the lines of a document say about its extraction -/
inductive Extracts (source : Text) : Except FrontmatterError Extraction → Prop
  | plain (h : ∀ l ∈ (lines (dropMark source)).head?, ¬ Opens l) :
      Extracts source (.ok ⟨.object [], source⟩)
  | unterminated {opening : Text} {rest : List Text}
      (hs : lines (dropMark source) = opening :: rest) (ho : Opens opening)
      (hr : ∀ l ∈ rest, ¬ Closes l) : Extracts source (.error .unterminated)
  | block (b : Block source) {said : Except FrontmatterError Json.Value} (h : Says b.text said) :
      Extracts source (said.map fun v => ⟨v, b.body⟩)

theorem not_allBlank_iff {t : Text} : ¬ Text.allBlank t = true ↔ ∃ c ∈ t, isBlank c = false := by
  simp [Text.allBlank]

theorem says_readBlock (t : Text) : Says t (readBlock t) := by
  unfold readBlock
  split
  · next h => exact .blank (List.all_eq_true.1 h)
  · next h =>
    have hsome := not_allBlank_iff.1 h
    split
    · next cause hload => exact .malformed hsome hload
    · next hload => exact .null hsome hload
    · next ms hload => exact .object hsome hload
    · next v hnull hobject hload => exact .other hsome hload hnull hobject

theorem readBlock_of_says {t : Text} {said : Except FrontmatterError Json.Value} (h : Says t said) :
    readBlock t = said := by
  unfold readBlock
  cases h with
  | blank h => exact if_pos (List.all_eq_true.2 h)
  | null h hload =>
    rw [if_neg (not_allBlank_iff.2 h), hload]
    rfl
  | object h hload => rw [if_neg (not_allBlank_iff.2 h), hload]
  | malformed h hload => rw [if_neg (not_allBlank_iff.2 h), hload]
  | @other v h hload hnull hobject =>
    rw [if_neg (not_allBlank_iff.2 h), hload]
    cases v with
    | null => exact absurd rfl hnull
    | object ms => exact absurd rfl (hobject ms)
    | _ => rfl

/-- **A block is read as what its YAML says.** -/
theorem readBlock_iff {t : Text} {said : Except FrontmatterError Json.Value} :
    readBlock t = said ↔ Says t said := by
  constructor
  · rintro rfl
    exact says_readBlock t
  · exact readBlock_of_says

theorem Block.blockText_eq {source : Text} (b : Block source) :
    blockText b.raw.flatten = b.text := by
  refine Text.dropEndWhile_eq_iff.2 ⟨fun c hc => ?_, b.endings, b.text_append.symm, fun c hc => ?_⟩
  · simp [b.text_last c hc]
  · simpa using b.endings_all c hc

theorem Block.cut_eq {source : Text} (b : Block source) :
    cut source = .block b.raw.flatten b.body := by
  obtain ⟨t, ht, e⟩ := cut_opened b.lines_eq b.opens
  rw [e]
  exact cutBlock_closed ht b.inside b.closes

theorem extract_of_extracts {source : Text} {result : Except FrontmatterError Extraction}
    (h : Extracts source result) : extract source = result := by
  unfold extract
  cases h with
  | plain h =>
    rw [cut_plain h]
    rfl
  | unterminated hs ho hr =>
    obtain ⟨t, ht, e⟩ := cut_opened hs ho
    rw [e, cutBlock_open (ht ▸ hr)]
  | block b h =>
    rw [b.cut_eq]
    dsimp only
    rw [b.blockText_eq, readBlock_of_says h]

theorem Block.extract_eq {source : Text} (b : Block source) :
    extract source = (readBlock b.text).map fun v => ⟨v, b.body⟩ :=
  extract_of_extracts (.block b (says_readBlock b.text))

/-- the first closing fence of some lines, if there is one -/
theorem exists_closing (ls : List Text) : (∀ l ∈ ls, ¬ Closes l) ∨
    ∃ raw closing rest, ls = raw ++ closing :: rest ∧ (∀ l ∈ raw, ¬ Closes l) ∧ Closes closing := by
  induction ls with
  | nil => exact .inl fun _ h => absurd h List.not_mem_nil
  | cons l ls ih =>
    by_cases hl : Closes l
    · exact .inr ⟨[], l, ls, rfl, fun _ h => absurd h List.not_mem_nil, hl⟩
    · rcases ih with h | ⟨raw, closing, rest, rfl, hr, hc⟩
      · exact .inl (List.forall_mem_cons.2 ⟨hl, h⟩)
      · exact .inr ⟨l :: raw, closing, rest, rfl, List.forall_mem_cons.2 ⟨hl, hr⟩, hc⟩

/-- the lines of a document say something about it -/
theorem exists_extracts (source : Text) : ∃ result, Extracts source result := by
  cases hs : lines (dropMark source) with
  | nil => exact ⟨_, .plain (by rw [hs]; exact fun _ h => nomatch h)⟩
  | cons opening rest =>
    by_cases ho : Opens opening
    · rcases exists_closing rest with h | ⟨raw, closing, rest, rfl, hr, hc⟩
      · exact ⟨_, .unterminated hs ho h⟩
      · obtain ⟨mark, hm, hsource⟩ := exists_dropMark source
        rw [← flatten_lines (dropMark source), hs] at hsource
        obtain ⟨endings, hraw, hall⟩ := Text.exists_dropEndWhile_append
          (fun c => c = '\r' || c = '\n') raw.flatten
        let b : Block source := {
          mark := mark, opening := opening, raw := raw, closing := closing, rest := rest,
          text := blockText raw.flatten, endings := endings, mark_or := hm,
          source_eq := by rw [hsource]; simp,
          lines_eq := hs, opens := ho, inside := hr, closes := hc, text_append := hraw.symm,
          text_last := fun c hc => by simpa using Text.getLast?_dropEndWhile _ _ c hc,
          endings_all := fun c hc => by simpa using hall c hc }
        exact ⟨_, .block b (says_readBlock b.text)⟩
    · refine ⟨_, .plain ?_⟩
      rw [hs]
      intro l hl
      rw [← Option.some.inj hl]
      exact ho

/-- **Extraction does what the lines of a document say.** -/
theorem extract_eq_iff {source : Text} {result : Except FrontmatterError Extraction} :
    extract source = result ↔ Extracts source result := by
  constructor
  · rintro rfl
    obtain ⟨r, hr⟩ := exists_extracts source
    rw [extract_of_extracts hr]
    exact hr
  · exact extract_of_extracts

/-! ## what is extracted -/

/-- what a block says when it says a value -/
theorem Says.ok {t : Text} {v : Json.Value} (h : Says t (.ok v)) :
    v = .object [] ∧ ((∀ c ∈ t, isBlank c = true) ∨ Yaml.load t = .ok .null) ∨
      ∃ ms, v = .object ms ∧ Yaml.load t = .ok (.object ms) := by
  cases h with
  | blank h => exact .inl ⟨rfl, .inl h⟩
  | null h hload => exact .inl ⟨rfl, .inr hload⟩
  | object h hload => exact .inr ⟨_, rfl, hload⟩

/-- a block fails when its YAML does, or when its value is no object -/
theorem Says.error {t : Text} {e : FrontmatterError} (h : Says t (.error e)) :
    (∃ cause, Yaml.load t = .error cause ∧ e = .malformed cause.message) ∨
      ∃ v, Yaml.load t = .ok v ∧ v ≠ .null ∧ (∀ ms, v ≠ .object ms) ∧ e = .notMapping := by
  cases h with
  | malformed h hload => exact .inl ⟨_, hload, rfl⟩
  | other h hload hnull hobject => exact .inr ⟨_, hload, hnull, hobject, rfl⟩

theorem extract_ok {source : Text} {e : Extraction} (h : extract source = .ok e) :
    e = ⟨.object [], source⟩ ∨ ∃ b : Block source, e.body = b.body ∧ Says b.text (.ok e.attributes) := by
  generalize hr : extract source = r at h
  cases extract_eq_iff.1 hr with
  | plain _ => exact .inl (Except.ok.inj h).symm
  | unterminated _ _ _ => exact nomatch h
  | @block b said hsaid =>
    obtain ⟨v, rfl, rfl⟩ := ok_of_map h
    exact .inr ⟨b, rfl, hsaid⟩

theorem extract_error {source : Text} {err : FrontmatterError} (h : extract source = .error err) :
    err = .unterminated ∨ ∃ b : Block source, Says b.text (.error err) := by
  generalize hr : extract source = r at h
  cases extract_eq_iff.1 hr with
  | plain _ => exact nomatch h
  | unterminated _ _ _ => exact .inl (Except.error.inj h).symm
  | @block b said hsaid =>
    obtain rfl := error_of_map_iff.1 h
    exact .inr ⟨b, hsaid⟩

/-- **The lines of a document decide what is extracted, and nothing of the document is lost.**  The text
that is read as YAML is the block without the line endings at its end: a blank one and one that is null
give no attributes, an object gives its own, and anything else is an error. -/
theorem extract_lines (source : Text) :
    (∃ mark, (mark = [] ∨ mark = [byteOrderMark]) ∧
        source = mark ++ (lines (dropMark source)).flatten) ∧
      (∃ full last, lines (dropMark source) = full ++ last ∧
        (∀ l ∈ full, ∃ t, '\n' ∉ t ∧ l = t ++ ['\n']) ∧
        (last = [] ∨ ∃ t, t ≠ [] ∧ '\n' ∉ t ∧ last = [t])) ∧
      (∀ result, extract source = result ↔ Extracts source result) ∧
      (∀ b : Block source, b.offset + Text.byteSize b.body = Text.byteSize source ∧
        Text.dropBytes? b.offset source = some b.body) ∧
      (∀ e, extract source = .ok e → e = ⟨.object [], source⟩ ∨
        ∃ b : Block source, e.body = b.body ∧
          (e.attributes = .object [] ∧
              ((∀ c ∈ b.text, isBlank c = true) ∨ Yaml.load b.text = .ok .null) ∨
            ∃ ms, e.attributes = .object ms ∧ Yaml.load b.text = .ok (.object ms))) ∧
      ∀ err, extract source = .error err → err = .unterminated ∨ ∃ b : Block source,
        (∃ cause, Yaml.load b.text = .error cause ∧ err = .malformed cause.message) ∨
          ∃ v, Yaml.load b.text = .ok v ∧ v ≠ .null ∧ (∀ ms, v ≠ .object ms) ∧
            err = .notMapping := by
  refine ⟨?_, lines_shape _, fun _ => extract_eq_iff, fun b => ?_, fun e h => ?_, fun err h => ?_⟩
  · obtain ⟨mark, hm, e⟩ := exists_dropMark source
    exact ⟨mark, hm, by rw [flatten_lines]; exact e⟩
  · have hsize := congrArg Text.byteSize b.source_eq
    have hdrop := Text.dropBytes?_byteSize (b.mark ++ b.opening ++ b.raw.flatten ++ b.closing) b.body
    rw [Text.byteSize_append] at hsize
    rw [Block.body, ← b.source_eq] at hdrop
    exact ⟨hsize.symm, hdrop⟩
  · obtain he | ⟨b, hbody, hsaid⟩ := extract_ok h
    · exact .inl he
    · exact .inr ⟨b, hbody, hsaid.ok⟩
  · obtain he | ⟨b, hsaid⟩ := extract_error h
    · exact .inl he
    · exact .inr ⟨b, hsaid.error⟩

theorem not_closes_of_lines {ts : List Text}
    (h : ∀ t ∈ ts, '\n' ∉ t ∧ isClosingFence t = false) : ∀ l ∈ ts.map (· ++ ['\n']), ¬ Closes l := by
  intro l hl hc
  obtain ⟨t, ht, rfl⟩ := List.mem_map.1 hl
  obtain ⟨hfeed, hfence⟩ := h t ht
  have hends : EndsLine ['\n'] [] := .inl rfl
  rw [(isClosingFence_iff hfeed hends).2 hc] at hfence
  exact nomatch hfence

/-- a block behind a byte order mark, with both kinds of line endings, that dots close -/
def markedBlock : Block "\ufeff---\r\ntags: [a, b]\r\n\r\n...\nBody\r\n".toList where
  mark := [byteOrderMark]
  opening := "---\r\n".toList
  raw := ["tags: [a, b]\r".toList, "\r".toList].map (· ++ ['\n'])
  closing := "...\n".toList
  rest := ["Body\r\n".toList]
  text := "tags: [a, b]".toList
  endings := "\r\n\r\n".toList
  mark_or := .inr rfl
  source_eq := rfl
  lines_eq := by decide +kernel
  opens := ⟨['\r'], List.forall_mem_singleton.2 rfl, .inr rfl⟩
  inside := not_closes_of_lines (by decide +kernel)
  closes := .inr ⟨[], fun _ h => absurd h List.not_mem_nil, .inr rfl⟩
  text_append := rfl
  text_last := by simp
  endings_all := by simp

theorem extract_lines_marked :
    Yaml.load markedBlock.text =
        .ok (.object [("tags".toList, .array [.string "a".toList, .string "b".toList])]) ∧
      extract "\ufeff---\r\ntags: [a, b]\r\n\r\n...\nBody\r\n".toList =
        .ok ⟨.object [("tags".toList, .array [.string "a".toList, .string "b".toList])],
          "Body\r\n".toList⟩ ∧
      Text.dropBytes? markedBlock.offset "\ufeff---\r\ntags: [a, b]\r\n\r\n...\nBody\r\n".toList =
        some "Body\r\n".toList := by
  have hload : Yaml.load markedBlock.text =
      .ok (.object [("tags".toList, .array [.string "a".toList, .string "b".toList])]) := by cbv
  obtain ⟨-, -, hextracts, hplace, -, -⟩ :=
    extract_lines "\ufeff---\r\ntags: [a, b]\r\n\r\n...\nBody\r\n".toList
  refine ⟨hload, (hextracts _).2 (.block markedBlock (.object ⟨'t', ?_, by decide⟩ hload)),
    (hplace markedBlock).2⟩
  exact List.mem_cons_self

end MarkdownModule.Frontmatter

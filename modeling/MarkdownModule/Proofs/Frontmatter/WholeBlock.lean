import Mathlib
import MarkdownModule.Proofs.Frontmatter.Lines
import MarkdownModule.Proofs.Yaml.Ending.Document

/-!
# The value of the whole block

The line endings at the end of a block are dropped before the block is read as YAML, and a block of
white space is not read at all.

* `Frontmatter.readWhole`        the value of a block with all of its line endings
* `Frontmatter.extract_whole`    when extraction gives that value
* `Frontmatter.extract_clipped`  a literal scalar at the end of a block loses its line break
-/

namespace MarkdownModule.Frontmatter

/-- the value of a block as it stands between its fence lines -/
def readWhole (raw : Text) : Except FrontmatterError Json.Value :=
  match Yaml.load raw with
  | .error cause => .error (.malformed cause.message)
  | .ok .null => .ok .emptyObject
  | .ok (.object ms) => .ok (.object ms)
  | .ok _ => .error .notMapping

/-- the same outcome, with whatever reason if the YAML is malformed -/
inductive Agree {α : Type} : Except FrontmatterError α → Except FrontmatterError α → Prop where
  | refl (x : Except FrontmatterError α) : Agree x x
  | malformed (reason reason' : Text) :
      Agree (.error (.malformed reason)) (.error (.malformed reason'))

theorem Agree.map {α β : Type} {x y : Except FrontmatterError α} (h : Agree x y) (f : α → β) :
    Agree (x.map f) (y.map f) := by
  cases h with
  | refl x => exact .refl _
  | malformed r r' => exact .malformed r r'

theorem readBlock_of_allBlank {t : Text} (h : Text.allBlank t = true) :
    readBlock t = .ok .emptyObject := if_pos h

theorem readBlock_of_not_allBlank {t : Text} (h : ¬ Text.allBlank t = true) :
    readBlock t = readWhole t := if_neg h

/-- the value of a block depends on its YAML alone -/
theorem readWhole_agree {s t : Text} (h : Yaml.Alike Eq (Yaml.load s) (Yaml.load t)) :
    Agree (readWhole s) (readWhole t) := by
  unfold readWhole
  generalize Yaml.load s = x at h
  generalize Yaml.load t = y at h
  cases h with
  | error a b => exact .malformed _ _
  | ok h =>
    rw [h]
    exact .refl _

/-- **Extraction gives the value of the whole block,** unless the block ends in a literal or a folded
scalar whose line breaks count, or holds nothing but white space that is not YAML's own. -/
theorem extract_whole {source : Text} (b : Block source)
    (hscalar : Yaml.endsInScalar b.text = false)
    (hblank : Text.allBlank b.text = true → Yaml.Gaps b.text) :
    Agree (extract source) ((readWhole b.raw.flatten).map fun v => ⟨v, b.body⟩) := by
  rw [b.extract_eq]
  refine Agree.map ?_ _
  by_cases h : Text.allBlank b.text = true
  · have hraw : Yaml.Gaps b.raw.flatten := by
      rw [← b.text_append]
      intro c hc
      rcases List.mem_append.1 hc with ht | he
      · exact hblank h c ht
      · exact .inr (Yaml.isBreak_of_ending (b.endings_all c he))
    have hwhole : readWhole b.raw.flatten = .ok .emptyObject := by
      unfold readWhole
      rw [Yaml.load_gaps hraw]
    rw [readBlock_of_allBlank h, hwhole]
    exact .refl _
  · rw [readBlock_of_not_allBlank h, ← b.text_append]
    have hlast : b.text.getLast? ≠ some '\r' := fun hc => (b.text_last '\r' hc).1 rfl
    exact readWhole_agree (Yaml.load_alike b.endings_all hlast hscalar)

/-- a block that ends in a folded scalar without line breaks at its end -/
def strippedBlock : Block "---\nt: [a, b]\nd: >-\n  x\n  y\n\n---\nz".toList where
  mark := []
  opening := "---\n".toList
  raw := ["t: [a, b]".toList, "d: >-".toList, "  x".toList, "  y".toList, []].map (· ++ ['\n'])
  closing := "---\n".toList
  rest := ["z".toList]
  text := "t: [a, b]\nd: >-\n  x\n  y".toList
  endings := "\n\n".toList
  mark_or := .inl rfl
  source_eq := rfl
  lines_eq := by decide +kernel
  opens := ⟨[], fun _ h => absurd h List.not_mem_nil, .inr rfl⟩
  inside := not_closes_of_lines (by decide +kernel)
  closes := .inl ⟨[], fun _ h => absurd h List.not_mem_nil, .inr rfl⟩
  text_append := rfl
  text_last := by simp
  endings_all := by simp

theorem extract_whole_stripped :
    Agree (extract "---\nt: [a, b]\nd: >-\n  x\n  y\n\n---\nz".toList)
      ((readWhole strippedBlock.raw.flatten).map fun v => ⟨v, strippedBlock.body⟩) :=
  extract_whole strippedBlock (by decide +kernel) (fun h => absurd h (by decide))

/-- a block that ends in a literal scalar -/
def clippedBlock : Block "---\na: |\n  x\n---\n".toList where
  mark := []
  opening := "---\n".toList
  raw := ["a: |".toList, "  x".toList].map (· ++ ['\n'])
  closing := "---\n".toList
  rest := []
  text := "a: |\n  x".toList
  endings := "\n".toList
  mark_or := .inl rfl
  source_eq := rfl
  lines_eq := by decide +kernel
  opens := ⟨[], fun _ h => absurd h List.not_mem_nil, .inr rfl⟩
  inside := not_closes_of_lines (by decide +kernel)
  closes := .inl ⟨[], fun _ h => absurd h List.not_mem_nil, .inr rfl⟩
  text_append := rfl
  text_last := by simp
  endings_all := by simp

/-- **A literal scalar at the end of a block loses its line break.** -/
theorem extract_clipped :
    extract "---\na: |\n  x\n---\n".toList =
        .ok ⟨.object [("a".toList, .string "x".toList)], []⟩ ∧
      (readWhole clippedBlock.raw.flatten).map (fun v => ⟨v, clippedBlock.body⟩) =
        (.ok ⟨.object [("a".toList, .string "x\n".toList)], []⟩ : Except _ Extraction) := by
  have htrimmed : Yaml.load clippedBlock.text =
      .ok (.object [("a".toList, .string "x".toList)]) := by cbv
  have hwhole : Yaml.load clippedBlock.raw.flatten =
      .ok (.object [("a".toList, .string "x\n".toList)]) := by cbv
  constructor
  · rw [clippedBlock.extract_eq, readBlock_of_not_allBlank (by decide)]
    unfold readWhole
    rw [htrimmed]
    rfl
  · unfold readWhole
    rw [hwhole]
    rfl

end MarkdownModule.Frontmatter

import MarkdownModule.Proofs.Frontmatter.Lines
import MarkdownModule.Proofs.Outcome

/-!
# Extraction a second time

What follows the frontmatter is a document again.  It is left as it is exactly when it has no fence on
its first line, where a byte order mark before that line does not count.

* `Frontmatter.extract_eq_self_iff`   the documents that are their own body
* `Frontmatter.extract_again`         the body of a document, taken as a document
* `Frontmatter.extract_again_marked`  a byte order mark hides a fence from a look at the first characters
-/

namespace MarkdownModule.Frontmatter

/-- the first line, behind a byte order mark that may stand there, opens a block -/
def HasBlock (source : Text) : Prop := ∃ l ∈ (lines (dropMark source)).head?, Opens l

theorem not_hasBlock_iff {source : Text} :
    ¬ HasBlock source ↔ ∀ l ∈ (lines (dropMark source)).head?, ¬ Opens l := by
  simp only [HasBlock, not_exists, not_and]

/-- a line that opens a block begins with three hyphens -/
theorem Opens.hyphens_prefix {l : Text} (h : Opens l) : "---".toList <+: l := by
  obtain ⟨pad, -, rfl | rfl⟩ := h
  · exact List.prefix_append _ _
  · rw [List.append_assoc]
    exact List.prefix_append _ _

/-- a document with a block begins with three hyphens, behind a mark that may stand there -/
theorem HasBlock.hyphens_prefix {source : Text} (h : HasBlock source) :
    "---".toList <+: dropMark source := by
  obtain ⟨l, hl, ho⟩ := h
  obtain ⟨ls, hls⟩ : ∃ ls, lines (dropMark source) = l :: ls := List.head?_eq_some_iff.1 hl
  rw [← flatten_lines (dropMark source), hls, List.flatten_cons]
  exact ho.hyphens_prefix.trans (List.prefix_append _ _)

/-- a block takes characters of its document -/
theorem Block.length_body_lt {source : Text} (b : Block source) :
    b.body.length < source.length := by
  have hopen := b.opens.hyphens_prefix.length_le
  have hsource := congrArg List.length b.source_eq
  have hhyphens : "---".toList.length = 3 := rfl
  simp only [List.length_append] at hsource
  rw [Block.body]
  omega

theorem extract_of_cut {source raw body : Text} {v : Json.Value} (h : cut source = .block raw body)
    (hv : readBlock (blockText raw) = .ok v) : extract source = .ok ⟨v, body⟩ := by
  unfold extract
  rw [h]
  dsimp only
  rw [hv]
  rfl

/-- **A document is its own body exactly when it has no block.** -/
theorem extract_eq_self_iff {source : Text} :
    extract source = .ok ⟨.emptyObject, source⟩ ↔ ¬ HasBlock source := by
  rw [not_hasBlock_iff]
  refine ⟨fun h => ?_, fun h => extract_of_extracts (.plain h)⟩
  generalize hr : extract source = r at h
  cases extract_eq_iff.1 hr with
  | plain hp => exact hp
  | unterminated _ _ _ => exact nomatch h
  | block b _ =>
    obtain ⟨v, -, hv⟩ := ok_of_map h
    have hbody : b.body = source := congrArg Extraction.body hv
    exact absurd b.length_body_lt (by rw [hbody]; exact Nat.lt_irrefl _)

/-- **The body of a document is left as it is when it does not begin with three hyphens, where a byte
order mark before them does not count.**  It is changed exactly when its first line is a fence, which
only happens behind a block. -/
theorem extract_again {source : Text} {e : Extraction} (h : extract source = .ok e) :
    (¬ "---".toList <+: dropMark e.body → extract e.body = .ok ⟨.emptyObject, e.body⟩) ∧
      (extract e.body = .ok ⟨.emptyObject, e.body⟩ ↔ ¬ HasBlock e.body) ∧
      (HasBlock e.body → ∃ b : Block source, e.body = b.body) := by
  refine ⟨fun hb => extract_eq_self_iff.2 fun hh => hb hh.hyphens_prefix, extract_eq_self_iff,
    fun hh => ?_⟩
  generalize hr : extract source = r at h
  cases extract_eq_iff.1 hr with
  | plain hp =>
    rw [← Except.ok.inj h] at hh
    exact absurd hh (not_hasBlock_iff.2 hp)
  | unterminated _ _ _ => exact nomatch h
  | block b _ =>
    obtain ⟨v, -, hv⟩ := ok_of_map h
    exact ⟨b, by rw [← hv]⟩

/-- a body that begins with a byte order mark and two hyphens -/
theorem extract_again_hyphens :
    let body := "\ufeff--\n---\n".toList
    extract ("---\n---\n".toList ++ body) = .ok ⟨.emptyObject, body⟩ ∧
      ¬ "---".toList <+: dropMark body ∧ extract body = .ok ⟨.emptyObject, body⟩ := by
  intro body
  have hcut : cut ("---\n---\n".toList ++ body) = .block [] body := by decide +kernel
  have he : extract ("---\n---\n".toList ++ body) = .ok ⟨.emptyObject, body⟩ :=
    extract_of_cut hcut rfl
  have hb : ¬ "---".toList <+: dropMark body := by decide
  exact ⟨he, hb, (extract_again he).1 hb⟩

/-- **A byte order mark hides a fence**: the body does not begin with three hyphens, and still it is
taken for a document with a block. -/
theorem extract_again_marked :
    let body := "\ufeff---\n---\nBody".toList
    extract ("---\n---\n".toList ++ body) = .ok ⟨.emptyObject, body⟩ ∧
      ¬ "---".toList <+: body ∧ extract body = .ok ⟨.emptyObject, "Body".toList⟩ := by
  intro body
  have hcut : cut ("---\n---\n".toList ++ body) = .block [] body := by decide +kernel
  have hcut' : cut body = .block [] "Body".toList := by decide +kernel
  exact ⟨extract_of_cut hcut rfl, by decide, extract_of_cut hcut' rfl⟩

end MarkdownModule.Frontmatter

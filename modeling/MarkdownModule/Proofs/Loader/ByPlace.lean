import MarkdownModule.Proofs.Frontmatter.ByPlace
import MarkdownModule.Proofs.Jsx.ByPlace

/-!
# The readers of a document by places

Every reader that goes through a document by places reads what the reader by characters reads.  None of
them reads a byte out of range or takes a part at the wrong places, and each step of their loops goes on.

* `readers_by_place`   the readers by places never fail
-/

namespace MarkdownModule

open Text (byteSize byteSize_append)

/-- **No reader by places reads a byte out of range, takes a part whose borders are no borders of
characters in their order, or stays at a place; each reads what is read by characters.**  Raw text may
begin at any border. -/
theorem readers_by_place :
    (∀ html, Html.ByPlace.startTagNames html = .ok (Html.startTagNames html)) ∧
    (∀ before inside name,
      Html.ByPlace.rawTextEnd (before ++ inside) (byteSize before) name =
        .ok (byteSize (before ++ (Html.cutRawText name inside).1)) ∧
      Html.rawTextEnd? (before ++ inside) (byteSize before) name =
        some (byteSize (before ++ (Html.cutRawText name inside).1)) ∧
      (Html.cutRawText name inside).1 ++ (Html.cutRawText name inside).2 = inside) ∧
    (∀ html, Jsx.ByPlace.ofHtml html = .ok (Jsx.ofHtml html)) ∧
    (∀ source, Html.ByPlace.readAttributes source = .ok (Html.readAttributes source)) ∧
    ∀ source, Frontmatter.ByPlace.cut source = .ok (Frontmatter.cut source) := by
  refine ⟨Html.ByPlace.startTagNames_eq, fun before inside name => ⟨?_, ?_, ?_⟩,
    Jsx.ByPlace.ofHtml_eq, Html.ByPlace.readAttributes_eq, Frontmatter.ByPlace.cut_eq⟩
  · rw [byteSize_append]
    exact Html.ByPlace.rawTextEnd_eq (Text.dropBytes?_byteSize before inside) name
  · rw [Html.rawTextEnd?, Text.dropBytes?_byteSize, byteSize_append]
    rfl
  · exact Text.cutAt_append _ inside

end MarkdownModule

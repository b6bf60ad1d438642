import MarkdownModule.Html.StartTag
import MarkdownModule.Naming

/-!
# References to components

A document refers to a component by a tag.  All spellings with the same kebab name are one
reference, and a document has its references in the order of first appearance.
-/

namespace MarkdownModule

/-- a component that a document refers to -/
structure ComponentReference where
  /-- the lower-case hyphenated name -/
  kebab : Text
  /-- the name of the local binding -/
  pascal : Text
deriving DecidableEq

namespace ComponentReference

/-- the reference that any spelling of a name stands for -/
def ofTag (tag : Text) : ComponentReference := ⟨Naming.kebab tag, Naming.pascal tag⟩

/-- the references without those whose kebab name has occurred before -/
def firsts : List ComponentReference → List ComponentReference
  | [] => []
  | r :: rs => r :: (firsts rs).filter (fun s => s.kebab ≠ r.kebab)

/-- the components that a document refers to, in the order of first appearance -/
def scan (html : Text) : List ComponentReference :=
  firsts (((Html.startTagNames html).filter Html.isCustom).map ofTag)

end ComponentReference

end MarkdownModule

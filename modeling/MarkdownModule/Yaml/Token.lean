import MarkdownModule.Text.Basic

/-!
# Tokens of YAML

The tokens of a text say where blocks begin and end, so that the structure of a document can be read
without looking at columns.
-/

namespace MarkdownModule.Yaml

inductive Token where
  | versionDirective (major minor : Nat)
  | tagDirective (handle start : Text)
  | documentStart
  | documentEnd
  | blockSequenceStart
  | blockMappingStart
  | blockEnd
  | flowSequenceStart
  | flowSequenceEnd
  | flowMappingStart
  | flowMappingEnd
  | blockEntry
  | flowEntry
  | key
  | value
  | alias (name : Text)
  | anchor (name : Text)
  /-- a tag as a handle and what follows it; the handle is empty when the tag is written in full -/
  | tag (handle suffix : Text)
  /-- a scalar, and whether it is written without quotes and in line with other tokens -/
  | scalar (text : Text) (plain : Bool)
deriving DecidableEq

end MarkdownModule.Yaml

import MarkdownModule.Json.Writer
import MarkdownModule.Mode

/-!
# What can go wrong

Each error is a cause.  `LoadError.message` says in words what a caller is told; the words of a
caller's own function are passed on unchanged.
-/

namespace MarkdownModule

structure SourceLocation where
  /-- the line, counted from one -/
  line : Nat
  /-- the column, counted from one -/
  column : Nat
deriving DecidableEq

/-- a place as `line:column` -/
def SourceLocation.describe (l : SourceLocation) : Text :=
  Json.natDigits l.line ++ ':' :: Json.natDigits l.column

inductive FrontmatterError where
  /-- the block has no closing line -/
  | unterminated
  /-- the block is no YAML, or holds a value without a JSON form -/
  | malformed (reason : Text)
  /-- the block holds something else than a mapping -/
  | notMapping
deriving DecidableEq

def FrontmatterError.message : FrontmatterError → Text
  | .unterminated => "Unterminated YAML frontmatter block: expected closing '---'".toList
  | .malformed reason => "Frontmatter parse error: ".toList ++ reason
  | .notMapping => "Frontmatter must be a YAML mapping at the top level".toList

/-- what a caller gave besides a renderer that excludes it -/
inductive RendererConflict where
  | renderer
  | options
  | optionsBesideRenderer
deriving DecidableEq

def RendererConflict.describe : RendererConflict → Text
  | .renderer => "a renderer instance".toList
  | .options => "renderer options".toList
  | .optionsBesideRenderer => "renderer options alongside an instance".toList

inductive LoadError where
  /-- the frontmatter cannot be read -/
  | frontmatter (cause : FrontmatterError)
  | conflictingRenderers (given : RendererConflict)
  /-- the text cannot be rendered -/
  | markdown (reason : Text) (location : SourceLocation)
  /-- the caller's render function failed -/
  | renderer (reason : Text)
  | missingCompiler (mode : Mode)
  /-- the caller's template compiler failed -/
  | template (reason : Text)
  /-- the rendered document cannot be made into a template -/
  | markup (reason : Text)
  /-- the options cannot be read -/
  | config (reason : Text)
deriving DecidableEq

def LoadError.message : LoadError → Text
  | .frontmatter cause => cause.message
  | .conflictingRenderers given =>
    "conflicting markdown renderer configuration: ".toList ++ given.describe
      ++ " cannot be combined with a custom render function".toList
  | .markdown reason location =>
    "Markdown error at ".toList ++ location.describe ++ ": ".toList ++ reason
  | .renderer reason => reason
  | .missingCompiler mode =>
    "mode `".toList ++ mode.token ++ "` requires a ".toList ++ mode.label
      ++ " template compiler, but none was registered".toList
  | .template reason => reason
  | .markup reason => "HTML rewrite error: ".toList ++ reason
  | .config reason => "invalid loader configuration: ".toList ++ reason

end MarkdownModule

import MarkdownModule.Text.Basic

/-!
# Names bound in a module

A module declares some names for itself.  A component whose name is one of them is bound under that
name with an underscore.
-/

namespace MarkdownModule.Script

def reactBinding : Text := "React".toList

def componentName : Text := "FrontmatterMarkdown".toList

/-- the name that holds the compiled render function -/
def renderBinding : Text := "__vueRender".toList

/-- the names that a module declares for itself -/
def reservedBindings : List Text := [reactBinding, componentName, renderBinding]

/-- the local name of the component with a Pascal name -/
def bindingFor (pascal : Text) : Text :=
  if pascal ∈ reservedBindings then pascal ++ ['_'] else pascal

end MarkdownModule.Script

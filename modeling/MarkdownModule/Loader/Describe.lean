import MarkdownModule.Loader
import MarkdownModule.Text.Visible

/-!
# Describing a loader

`Loader.describe` is the line that a developer sees of a loader.
-/

namespace MarkdownModule

def ExportKind.label : ExportKind → Text
  | .default => "Default".toList
  | .named => "Named".toList

/-- a record: its name, and its fields in braces -/
def describeRecord (name : String) (fields : List (String × Text)) : Text :=
  name.toList ++ " \x7b ".toList
    ++ ", ".toList.intercalate (fields.map fun f => f.1.toList ++ ": ".toList ++ f.2)
    ++ " \x7d".toList

def describeList (items : List Text) : Text := '[' :: ", ".toList.intercalate items ++ [']']

def ComponentDefinition.describe (d : ComponentDefinition) : Text :=
  describeRecord "ComponentDefinition"
    [("name", Text.quoteVisible d.name), ("module_path", Text.quoteVisible d.modulePath),
     ("export_type", d.exportKind.label)]

def ComponentRegistry.describe (g : ComponentRegistry) : Text :=
  describeRecord "ComponentRegistry"
    [("definitions", describeList (g.definitions.map ComponentDefinition.describe)),
     ("prefix", Text.quoteVisible g.pathStart)]

def Loader.describe (l : Loader) : Text :=
  describeRecord "Loader"
    [("modes", l.modes.describe), ("render", l.channel.describe),
     ("frameworks", describeList (l.frameworks.map fun b => b.framework.mode.label)),
     ("registry", l.registry.describe)]

end MarkdownModule

import MarkdownModule.Component.Reference
import MarkdownModule.Script.Binding
import MarkdownModule.Script.Module

/-!
# Where components are imported from

A registry lists the components that a caller has placed.  A reference that no definition covers is
the default export of the module whose path is a common beginning followed by its Pascal name.
-/

namespace MarkdownModule

inductive ExportKind where
  /-- as its default export -/
  | default
  /-- under the component's name -/
  | named
deriving DecidableEq

structure ComponentDefinition where
  /-- the name of the component, in any spelling -/
  name : Text
  modulePath : Text
  exportKind : ExportKind := .default
deriving DecidableEq

def ComponentDefinition.covers (d : ComponentDefinition) (r : ComponentReference) : Bool :=
  Naming.kebab d.name == r.kebab

structure ComponentImport where
  binding : Text
  path : Text
  /-- the exported name, absent for the default export -/
  named : Option Text
deriving DecidableEq

/-- the components that a caller has placed, and the start of the path of all others -/
structure ComponentRegistry where
  definitions : List ComponentDefinition
  pathStart : Text

namespace ComponentRegistry

def defaultPathStart : Text := "./components/".toList

/-- the registry of a caller who places no components -/
def standard : ComponentRegistry := ⟨[], defaultPathStart⟩

def find? (g : ComponentRegistry) (r : ComponentReference) : Option ComponentDefinition :=
  g.definitions.find? (·.covers r)

/-- the exported name under which a definition gives a reference; a tag spelling is no name -/
def exportedName (d : ComponentDefinition) (r : ComponentReference) : Option Text :=
  match d.exportKind with
  | .default => none
  | .named => some (if d.name.contains '-' then r.pascal else d.name)

def resolve (g : ComponentRegistry) (r : ComponentReference) : ComponentImport :=
  match g.find? r with
  | some d => ⟨Script.bindingFor r.pascal, d.modulePath, exportedName d r⟩
  | none => ⟨Script.bindingFor r.pascal, g.pathStart ++ r.pascal, none⟩

end ComponentRegistry

def ComponentImport.statement (i : ComponentImport) : Text :=
  match i.named with
  | some name => Script.Module.namedImport name i.binding i.path
  | none => Script.Module.defaultImport i.binding i.path

def Script.Module.addComponents (m : Script.Module) (g : ComponentRegistry)
    (rs : List ComponentReference) : Script.Module :=
  rs.foldl (fun m r => (m.addImport (g.resolve r).statement).1) m

end MarkdownModule

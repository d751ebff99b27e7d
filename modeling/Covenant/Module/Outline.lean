import Covenant.Module.Basic
import Covenant.Tree.Liveness
import Covenant.Tree.Outline

/-!
# Outlines of declarations

The parts of a module as records for a tool that looks at what was read: its
variables and their uses, its events and its script.  Types are written as
they are shown in messages, and bodies as outlines of trees.
-/

namespace Covenant

def Storage.name : Storage → String
  | .global => "Global"
  | .local => "Local"
  | .argument => "Argument"
  | .nft => "Nft"

namespace Ty

def outline (ty : Ty) : Json :=
  .text ty.display

end Ty

/-- A variable; one that is no collection has neither keys nor values. -/
def Variable.outline (declaration : Variable) : Json :=
  .record [
    ("id", .natural declaration.id),
    ("name", .text declaration.name),
    ("type", declaration.ty.outline),
    ("storage", .text declaration.storage.name),
    ("scope", .natural declaration.scope),
    ("line", .natural declaration.line),
    ("key", .optional Ty.outline (declaration.collection.bind CollectionTypes.key)),
    ("value", .optional Ty.outline (declaration.collection.map CollectionTypes.value))]

def Constant.outline (constant : Constant) : Json :=
  .array [.text constant.name, constant.ty.outline, .text constant.value,
    .natural constant.line]

/-- What a scope itself declares, apart from its constants. -/
def ScopeTree.outline (tree : ScopeTree) (id : ScopeId) : Json :=
  let scope := tree.scope id
  .record [
    ("id", .natural id),
    ("module", .text scope.moduleName),
    ("variables", .array ((tree.declaredIn id).map Variable.outline)),
    ("methods", .texts scope.methods)]

def VariableUse.outline (use : VariableUse) : Json :=
  .array [.natural use.declaration.id, .text use.declaration.name, .bool use.isUsed,
    .bool use.isAssigned, .natural use.initializations]

def Description.outline : Description → Json
  | .template text => .texts ["template", text]
  | .bytes digits => .texts ["bytes", digits]
  | .module name => .texts ["module", name]

def Event.outline (event : Event) : Json :=
  .record [
    ("name", .text event.name),
    ("value", .natural event.number),
    ("type", event.ty.outline),
    ("line", .natural event.line),
    ("description", event.description.outline)]

def Script.outline (script : Script) : Json :=
  .record [
    ("scope", .natural script.scope),
    ("parameters", .naturals script.parameters),
    ("body", script.body.outline),
    ("returns", script.returns.outline),
    ("id", .natural script.mark.id),
    ("line", .natural script.mark.line)]

def StructDecl.outline (decl : StructDecl) : Json :=
  .array [.text decl.name,
    .array (decl.fields.map fun field => .array [.text field.name, field.ty.outline])]

end Covenant

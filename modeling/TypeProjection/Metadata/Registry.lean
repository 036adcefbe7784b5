import Std.Data.HashMap
import TypeProjection.Metadata.Image

/-!
# Registries

A registry is an image that grows row by row.  Definitions and references are only ever
appended, each kind to a table of its own, and a row keeps its handle for good.
Definitions at top level are also indexed by their namespace and name, where
the first of several takes precedence.
-/

namespace TypeProjection.Metadata

/-- The type definitions and type references added so far, with an index of the
definitions at top level. -/
structure Registry where
  definitions : Array Definition
  references : Array Reference
  index : Std.HashMap (String × String) DefinitionHandle

namespace Registry

def empty : Registry :=
  ⟨#[], #[], ∅⟩

/-- The handle of the row that is the last of `count`.  Counts beyond a word saturate. -/
def lastHandle {kind : Kind} (count : Nat) : TypedHandle kind :=
  .ofRow (.ofNatClamp count)

/-- Appends a definition without touching the index. -/
def append (registry : Registry) (definition : Definition) : DefinitionHandle × Registry :=
  let definitions := registry.definitions.push definition
  (lastHandle definitions.size, { registry with definitions })

/-- Appends a definition at top level. -/
def addDefinition (registry : Registry) (namespaceName name : String)
    (attributes : TypeAttributes) : DefinitionHandle × Registry :=
  let (handle, registry) := registry.append ⟨name, namespaceName, attributes, none⟩
  let index := registry.index.insertIfNew (namespaceName, name) handle
  (handle, { registry with index })

/-- Appends a definition inside another.  It has no namespace, counts as nested
and is not indexed. -/
def addNested (registry : Registry) (declaring : DefinitionHandle) (name : String)
    (attributes : TypeAttributes) : DefinitionHandle × Registry :=
  registry.append ⟨name, "", attributes.union .nestedPublic, some declaring⟩

def addReference (registry : Registry) (scope : Handle) (namespaceName name : String) :
    ReferenceHandle × Registry :=
  let references := registry.references.push ⟨name, namespaceName, scope⟩
  (lastHandle references.size, { registry with references })

def externalScope : Handle :=
  .ofRow .assemblyReference 1

def addExternal (registry : Registry) (namespaceName name : String) :
    ReferenceHandle × Registry :=
  registry.addReference externalScope namespaceName name

/-- A row that is still to be appended. -/
inductive Addition where
  | definition (namespaceName name : String) (attributes : TypeAttributes)
  | nested (declaring : DefinitionHandle) (name : String) (attributes : TypeAttributes)
  | reference (scope : Handle) (namespaceName name : String)
  | external (namespaceName name : String)
  deriving DecidableEq, Repr

def add (registry : Registry) : Addition → Handle × Registry
  | .definition namespaceName name attributes =>
      (registry.addDefinition namespaceName name attributes).map TypedHandle.toHandle id
  | .nested declaring name attributes =>
      (registry.addNested declaring name attributes).map TypedHandle.toHandle id
  | .reference scope namespaceName name =>
      (registry.addReference scope namespaceName name).map TypedHandle.toHandle id
  | .external namespaceName name =>
      (registry.addExternal namespaceName name).map TypedHandle.toHandle id

/-- The first definition at top level with a given namespace and name. -/
def find? (registry : Registry) (namespaceName name : String) : Option DefinitionHandle :=
  registry.index[(namespaceName, name)]?

/-- The handles of all definitions, in the order of their rows. -/
def definitionHandles (registry : Registry) : List DefinitionHandle :=
  (List.range registry.definitions.size).map fun position => lastHandle (position + 1)

def definition? (registry : Registry) (handle : DefinitionHandle) : Option Definition := do
  registry.definitions[← handle.index?]?

def reference? (registry : Registry) (handle : ReferenceHandle) : Option Reference := do
  registry.references[← handle.index?]?

def rowCount (registry : Registry) : Kind → Nat
  | .typeDefinition => registry.definitions.size
  | .typeReference => registry.references.size
  | _ => 0

def image (registry : Registry) : Image :=
  ⟨registry.definition?, registry.reference?⟩

end Registry

end TypeProjection.Metadata

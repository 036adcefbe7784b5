/-!
# Kinds of metadata rows

Every handle points into one metadata table.  A kind names that table; its
table id is the high byte of the tokens of its handles.
-/

namespace TypeProjection.Metadata

/-- The metadata tables that a handle may point into. -/
inductive Kind where
  | moduleDefinition
  | typeReference
  | typeDefinition
  | moduleReference
  | typeSpecification
  | assemblyReference
  deriving DecidableEq, Repr

namespace Kind

/-- All kinds, in the order of their table ids. -/
def all : List Kind :=
  [moduleDefinition, typeReference, typeDefinition, moduleReference,
    typeSpecification, assemblyReference]

def tableId : Kind → UInt8
  | moduleDefinition => 0x00
  | typeReference => 0x01
  | typeDefinition => 0x02
  | moduleReference => 0x1A
  | typeSpecification => 0x1B
  | assemblyReference => 0x23

def ofTableId? (id : UInt8) : Option Kind :=
  all.find? fun kind => kind.tableId = id

def name : Kind → String
  | moduleDefinition => "ModuleDefinition"
  | typeReference => "TypeReference"
  | typeDefinition => "TypeDefinition"
  | moduleReference => "ModuleReference"
  | typeSpecification => "TypeSpecification"
  | assemblyReference => "AssemblyReference"

def ofName? (name : String) : Option Kind :=
  all.find? fun kind => kind.name = name

@[simp]
theorem ofTableId?_tableId (kind : Kind) : ofTableId? kind.tableId = some kind := by
  cases kind <;> rfl

@[simp]
theorem ofName?_name (kind : Kind) : ofName? kind.name = some kind := by
  cases kind <;> rfl

end Kind

end TypeProjection.Metadata

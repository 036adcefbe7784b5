import TypeProjection.Projection.Enclosure
import TypeProjection.Projection.Error
import TypeProjection.Projection.Request

/-!
# Names of types

The simple name of a type and its name inside the types that enclose it.  A
definition is enclosed by the definition that declares it, a reference by its
scope for as long as that is a reference too.  Namespaces are no part of these
names.
-/

namespace TypeProjection.Metadata.Image

open TypeProjection.Source

def simpleName (image : Image) (handle : Handle) : Except ProjectionError String :=
  match Request.ofHandle? handle with
  | none => .error (.unrecognizedKind handle.kind)
  | some (.definition definition) =>
      match image.definition? definition with
      | none => .error (.dangling definition.toHandle)
      | some row => .ok row.name
  | some (.reference reference) =>
      match image.reference? reference with
      | none => .error (.dangling reference.toHandle)
      | some row => .ok row.name

/-- The name of the row that a handle names inside all types that enclose it.
Fails at the first enclosing handle that names no row or closes a loop. -/
def qualifiedName (image : Image) (handle : Handle) : Except ProjectionError DottedName :=
  match Request.ofHandle? handle with
  | none => .error (.unrecognizedKind handle.kind)
  | some (.definition definition) =>
      (Enclosure.of (image.link? .typeDefinition) definition).name?.mapError
        fun link => .dangling link.toHandle
  | some (.reference reference) =>
      (Enclosure.of (image.link? .typeReference) reference).name?.mapError
        fun link => .dangling link.toHandle

end TypeProjection.Metadata.Image

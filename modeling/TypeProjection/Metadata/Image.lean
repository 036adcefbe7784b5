import TypeProjection.Metadata.Attributes
import TypeProjection.Metadata.Handle

/-!
# Metadata images

What a projection sees of a loaded metadata image: for every handle of a type
definition or reference the row that it names, if there is one.
-/

namespace TypeProjection.Metadata

structure Definition where
  name : String
  namespaceName : String
  attributes : TypeAttributes
  /-- The enclosing definition of a nested one. -/
  declaring? : Option DefinitionHandle
  deriving DecidableEq, Repr

structure Reference where
  name : String
  namespaceName : String
  /-- A module, an assembly, or the enclosing reference of a nested one. -/
  scope : Handle
  deriving DecidableEq, Repr

/-- The rows of an image, looked up by their handles. -/
structure Image where
  definition? : DefinitionHandle → Option Definition
  reference? : ReferenceHandle → Option Reference

def Definition.isInterface (definition : Definition) : Bool :=
  definition.attributes.isInterface

def Reference.enclosing? (reference : Reference) : Option ReferenceHandle :=
  reference.scope.as? .typeReference

end TypeProjection.Metadata

/-!
# Constructs

The constructs of a signature that may be found unsupported, because a builder
declines to represent them or because no decoder accepts them.
-/

namespace TypeProjection.Signature

/-- A construct that may be found unsupported. -/
inductive Construct where
  | vector
  | genericInstance
  | specification
  | byReference
  | functionPointer
  | typeVariable
  | methodVariable
  | modified
  | pinned
  | typedReference
  | sentinel
  deriving DecidableEq, Repr

namespace Construct

def name : Construct → String
  | vector => "single-dimension array"
  | genericInstance => "generic instantiation"
  | specification => "type specification"
  | byReference => "by-reference"
  | functionPointer => "function pointer"
  | typeVariable => "generic type parameter"
  | methodVariable => "generic method parameter"
  | modified => "modified type"
  | pinned => "pinned type"
  | typedReference => "typed reference"
  | sentinel => "vararg sentinel"

def unsupportedMessage (construct : Construct) : String :=
  "unsupported signature shape `" ++ construct.name ++ "`"

end Construct

end TypeProjection.Signature

/-!
# Element types

The bytes that introduce every type other than a primitive one, together with
the two bytes that mark a place in a signature without introducing a type of
their own.
-/

namespace TypeProjection.Signature

/-- A byte of a signature that introduces a composite or special production. -/
inductive ElementType where
  | pointer
  | byReference
  | valueType
  | classType
  | typeVariable
  | array
  | genericInstance
  | typedReference
  | functionPointer
  | vector
  | methodVariable
  | requiredModifier
  | optionalModifier
  | sentinel
  | pinned
  deriving DecidableEq, Repr

namespace ElementType

/-- All element types, in ascending order of their codes. -/
def all : List ElementType :=
  [pointer, byReference, valueType, classType, typeVariable, array, genericInstance,
    typedReference, functionPointer, vector, methodVariable, requiredModifier,
    optionalModifier, sentinel, pinned]

def code : ElementType → UInt8
  | pointer => 0x0F
  | byReference => 0x10
  | valueType => 0x11
  | classType => 0x12
  | typeVariable => 0x13
  | array => 0x14
  | genericInstance => 0x15
  | typedReference => 0x16
  | functionPointer => 0x1B
  | vector => 0x1D
  | methodVariable => 0x1E
  | requiredModifier => 0x1F
  | optionalModifier => 0x20
  | sentinel => 0x41
  | pinned => 0x45

def ofCode? (code : UInt8) : Option ElementType :=
  all.find? fun element => element.code = code

@[simp]
theorem ofCode?_code (element : ElementType) : ofCode? element.code = some element := by
  cases element <;> rfl

end ElementType

end TypeProjection.Signature

/-!
# Primitive types

The scalar types that a signature names by a single byte, their codes and
their metadata names.
-/

namespace TypeProjection.Signature

/-- A scalar type that appears directly in a signature. -/
inductive Primitive where
  | void
  | boolean
  | char
  | sbyte
  | byte
  | int16
  | uint16
  | int32
  | uint32
  | int64
  | uint64
  | single
  | double
  | string
  | intPtr
  | uintPtr
  | object
  deriving DecidableEq, Repr

namespace Primitive

/-- All primitive types, in ascending order of their codes. -/
def all : List Primitive :=
  [void, boolean, char, sbyte, byte, int16, uint16, int32, uint32, int64, uint64,
    single, double, string, intPtr, uintPtr, object]

def code : Primitive → UInt8
  | void => 0x01
  | boolean => 0x02
  | char => 0x03
  | sbyte => 0x04
  | byte => 0x05
  | int16 => 0x06
  | uint16 => 0x07
  | int32 => 0x08
  | uint32 => 0x09
  | int64 => 0x0A
  | uint64 => 0x0B
  | single => 0x0C
  | double => 0x0D
  | string => 0x0E
  | intPtr => 0x18
  | uintPtr => 0x19
  | object => 0x1C

def ofCode? (code : UInt8) : Option Primitive :=
  all.find? fun primitive => primitive.code = code

def name : Primitive → String
  | void => "Void"
  | boolean => "Boolean"
  | char => "Char"
  | sbyte => "SByte"
  | byte => "Byte"
  | int16 => "Int16"
  | uint16 => "UInt16"
  | int32 => "Int32"
  | uint32 => "UInt32"
  | int64 => "Int64"
  | uint64 => "UInt64"
  | single => "Single"
  | double => "Double"
  | string => "String"
  | intPtr => "IntPtr"
  | uintPtr => "UIntPtr"
  | object => "Object"

def ofName? (name : String) : Option Primitive :=
  all.find? fun primitive => primitive.name = name

def isPointerSized : Primitive → Bool
  | intPtr | uintPtr => true
  | _ => false

@[simp]
theorem ofCode?_code (primitive : Primitive) :
    ofCode? primitive.code = some primitive := by
  cases primitive <;> rfl

@[simp]
theorem ofName?_name (primitive : Primitive) :
    ofName? primitive.name = some primitive := by
  cases primitive <;> rfl

end Primitive

end TypeProjection.Signature

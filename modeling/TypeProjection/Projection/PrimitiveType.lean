import TypeProjection.Signature.Primitive
import TypeProjection.Source.TypeExpr

/-!
# Primitive types in source

Every primitive type has a keyword, except for the two pointer-sized integers,
which are written as identifiers.
-/

namespace TypeProjection

open TypeProjection.Signature TypeProjection.Source

def Signature.Primitive.typeExpr (nativeWidth : Bool) : Primitive → TypeExpr
  | .void => .ofKeyword .void
  | .boolean => .ofKeyword .bool
  | .char => .ofKeyword .char
  | .sbyte => .ofKeyword .sbyte
  | .byte => .ofKeyword .byte
  | .int16 => .ofKeyword .short
  | .uint16 => .ofKeyword .ushort
  | .int32 => .ofKeyword .int
  | .uint32 => .ofKeyword .uint
  | .int64 => .ofKeyword .long
  | .uint64 => .ofKeyword .ulong
  | .single => .ofKeyword .float
  | .double => .ofKeyword .double
  | .string => .ofKeyword .string
  | .intPtr => .identifier (if nativeWidth then "nint" else "IntPtr")
  | .uintPtr => .identifier (if nativeWidth then "nuint" else "UIntPtr")
  | .object => .ofKeyword .object

end TypeProjection

/-!
# Keywords

The types that the generated source names by a keyword.
-/

namespace TypeProjection.Source

/-- A type with a keyword of its own. -/
inductive Keyword where
  | bool
  | char
  | sbyte
  | byte
  | short
  | ushort
  | int
  | uint
  | long
  | ulong
  | float
  | double
  | decimal
  | object
  | string
  | void
  deriving DecidableEq, Repr

namespace Keyword

def all : List Keyword :=
  [bool, char, sbyte, byte, short, ushort, int, uint, long, ulong, float, double,
    decimal, object, string, void]

def text : Keyword → String
  | bool => "bool"
  | char => "char"
  | sbyte => "sbyte"
  | byte => "byte"
  | short => "short"
  | ushort => "ushort"
  | int => "int"
  | uint => "uint"
  | long => "long"
  | ulong => "ulong"
  | float => "float"
  | double => "double"
  | decimal => "decimal"
  | object => "object"
  | string => "string"
  | void => "void"

end Keyword

end TypeProjection.Source

import TypeProjection.Flags

/-!
# Attributes of type definitions

The attribute word of a type definition.  Only some bits have a meaning here;
all others are kept.
-/

namespace TypeProjection.Metadata

structure TypeAttributes where
  bits : BitVec 32
  deriving DecidableEq, Repr

namespace TypeAttributes

def nestedPublic : TypeAttributes := ⟨0x2⟩

def interface : TypeAttributes := ⟨0x20⟩

def vocabulary : FlagVocabulary 32 where
  title := "TypeAttributes"
  flags :=
    [("PUBLIC", 0x1), ("NESTED_PUBLIC", 0x2), ("SEQUENTIAL_LAYOUT", 0x8),
      ("EXPLICIT_LAYOUT", 0x10), ("INTERFACE", 0x20), ("ABSTRACT", 0x80),
      ("SEALED", 0x100), ("WINDOWS_RUNTIME", 0x4000)]

def union (left right : TypeAttributes) : TypeAttributes :=
  ⟨left.bits ||| right.bits⟩

def isInterface (attributes : TypeAttributes) : Bool :=
  attributes.bits &&& interface.bits == interface.bits

end TypeAttributes

end TypeProjection.Metadata

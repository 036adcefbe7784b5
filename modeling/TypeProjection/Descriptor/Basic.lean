import TypeProjection.Metadata.Handle
import TypeProjection.Signature.Dimensions
import TypeProjection.Signature.Primitive

/-!
# Type descriptors

A descriptor is the type that a signature denotes, before any decision on how
it will be written: a primitive type or a metadata handle, inside any number of
pointers and arrays.
-/

namespace TypeProjection

open TypeProjection.Metadata TypeProjection.Signature

/-- The type that a signature denotes. -/
inductive Descriptor where
  | primitive (code : Primitive)
  | named (handle : Handle)
  | array (element : Descriptor) (dimensions : Dimensions)
  | pointer (element : Descriptor)
  deriving DecidableEq, Repr

namespace Descriptor

def element? : Descriptor → Option Descriptor
  | primitive _ => none
  | named _ => none
  | array element _ => some element
  | pointer element => some element

/-- The innermost descriptor, which is no array and no pointer. -/
def leaf : Descriptor → Descriptor
  | primitive code => primitive code
  | named handle => named handle
  | array element _ => element.leaf
  | pointer element => element.leaf

theorem leaf_cases (descriptor : Descriptor) :
    (∃ code, descriptor.leaf = .primitive code) ∨
      ∃ handle, descriptor.leaf = .named handle := by
  induction descriptor with
  | primitive code => exact .inl ⟨code, rfl⟩
  | named handle => exact .inr ⟨handle, rfl⟩
  | array element dimensions ih => exact ih
  | pointer element ih => exact ih

/-- The number of arrays and pointers around the leaf. -/
def depth : Descriptor → Nat
  | primitive _ => 0
  | named _ => 0
  | array element _ => element.depth + 1
  | pointer element => element.depth + 1

/-- The notation of a descriptor: `Int32`, `0x02000003*`, `Byte[4, ?]`. -/
def text : Descriptor → String
  | primitive code => code.name
  | named handle => handle.text
  | array element dimensions =>
      element.text ++ "[" ++ ", ".intercalate dimensions.texts ++ "]"
  | pointer element => element.text ++ "*"

end Descriptor

end TypeProjection

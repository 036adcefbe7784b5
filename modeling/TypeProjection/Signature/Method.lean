/-!
# Signature headers and method signatures

The first byte of a signature packs a kind or calling convention into its low
four bits and three flags above them.
-/

namespace TypeProjection.Signature

/-- What a signature describes. -/
inductive HeaderKind where
  | method
  | field
  | localVariables
  | property
  | methodSpecification
  deriving DecidableEq, Repr

inductive CallingConvention where
  | default
  | cdecl
  | stdcall
  | thiscall
  | fastcall
  | varArgs
  | unmanaged
  deriving DecidableEq, Repr

/-- The first byte of a signature. -/
structure Header where
  raw : UInt8
  deriving DecidableEq, Repr

namespace Header

def field : Header := ⟨0x06⟩

/-- The low four bits, which hold the kind and the calling convention. -/
def low (header : Header) : UInt8 :=
  header.raw &&& 0x0F

/-- The kind of the signature; some values of the low bits have none. -/
def kind? (header : Header) : Option HeaderKind :=
  if header.low ≤ 0x05 ∨ header.low = 0x09 then some .method
  else if header.low = 0x06 then some .field
  else if header.low = 0x07 then some .localVariables
  else if header.low = 0x08 then some .property
  else if header.low = 0x0A then some .methodSpecification
  else none

/-- The calling convention; low bits without one count as the default. -/
def convention (header : Header) : CallingConvention :=
  if header.low = 0x01 then .cdecl
  else if header.low = 0x02 then .stdcall
  else if header.low = 0x03 then .thiscall
  else if header.low = 0x04 then .fastcall
  else if header.low = 0x05 then .varArgs
  else if header.low = 0x09 then .unmanaged
  else .default

/-- Whether a count of generic parameters follows. -/
def isGeneric (header : Header) : Bool :=
  header.raw &&& 0x10 != 0

/-- Whether the method has an instance as its first argument. -/
def hasThis (header : Header) : Bool :=
  header.raw &&& 0x20 != 0

/-- Whether that argument is listed among the parameters. -/
def explicitThis (header : Header) : Bool :=
  header.raw &&& 0x40 != 0

end Header

/-- A method signature over some representation of types. -/
structure MethodSignature (α : Type) where
  header : Header
  genericArity : UInt32
  returnType : α
  parameters : List α
  deriving DecidableEq, Repr

namespace MethodSignature

variable {α β : Type}

/-- Applies an effectful function to the return type and then to each parameter
from left to right. -/
def mapM {m : Type → Type} [Monad m] (f : α → m β) (signature : MethodSignature α) :
    m (MethodSignature β) := do
  let returnType ← f signature.returnType
  let parameters ← signature.parameters.mapM f
  return { signature with returnType, parameters }

def map (f : α → β) (signature : MethodSignature α) : MethodSignature β :=
  { signature with
    returnType := f signature.returnType
    parameters := signature.parameters.map f }

/-- Numbers the types in the order in which `mapM` visits them, from one. -/
def numbered (signature : MethodSignature α) : MethodSignature (Nat × α) :=
  let number (type : α) : StateM Nat (Nat × α) := do
    modify (· + 1)
    return (← get, type)
  ((signature.mapM number).run 0).1

/-- The return type followed by the parameters. -/
def types (signature : MethodSignature α) : List α :=
  signature.returnType :: signature.parameters

@[simp]
theorem types_map (f : α → β) (signature : MethodSignature α) :
    (signature.map f).types = signature.types.map f :=
  rfl

end MethodSignature

end TypeProjection.Signature

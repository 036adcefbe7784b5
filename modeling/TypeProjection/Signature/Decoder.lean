import TypeProjection.Signature.Compressed
import TypeProjection.Signature.ElementType
import TypeProjection.Signature.Run

/-!
# Decoding signatures

A signature is decoded from left to right in a single pass.  The parts of a
production are built before the production itself, so the builder meets the
types of a signature in the order in which they end.

The nesting of types is bounded.  Every type takes one of the levels that are
left to it, and its parts share the others.
-/

namespace TypeProjection.Signature

open TypeProjection.Metadata

/-- How many types may stand inside one another. -/
def maxNesting : Nat := 128

namespace Read

/-- Reads a header, which must be of the given kind. -/
def header (kind : HeaderKind) : Read Header := do
  let start ← offset
  let header := Header.mk (← byte)
  if header.kind? = some kind then return header
  else malformedAt start (.unexpectedHeader header.raw)

/-- Reads a count, at most `limit`, and then as many items; a larger count is
malformed at `start`. -/
def countedUpTo {α : Type} (limit : UInt32) (start : Nat) (item : Read α) :
    Read (List α) := do
  let count ← unsigned
  if limit < count then malformedAt start .invalidDimensions
  else times count.toNat item

def dimensions : Read Dimensions := do
  let start ← offset
  let rank ← unsigned
  if rank = 0 then malformedAt start .invalidDimensions
  else
    let sizes ← countedUpTo rank start unsigned
    let lowerBounds ← countedUpTo rank start signed
    return ⟨rank, sizes, lowerBounds⟩

end Read

namespace Decode

variable {τ : Type} (builder : Builder τ)

/-- The production that a coded index stands for; a nil row stands for none. -/
def named? (coded : UInt32) (form : NamedForm) : Option (Production τ) := do
  let handle ← Handle.ofCoded? coded
  if handle.isNil then none
  else match handle.kind with
    | .typeDefinition => some (.core (.definition ⟨handle.row⟩ form))
    | .typeReference => some (.core (.reference ⟨handle.row⟩ form))
    | .typeSpecification => some (.optional (.specification ⟨handle.row⟩ form))
    | _ => none

/-- Reads a coded index as the name of a type whose production starts at
`start`. -/
def named (form : NamedForm) (start : Nat) : Decode τ τ := do
  let codedStart ← Read.offset
  let coded ← Read.unsigned
  match named? coded form with
  | some production => call builder start production
  | none => Read.malformedAt codedStart (.invalidCodedIndex coded)

/-- Reads the byte that tells a class from a value type. -/
def namedForm : Read NamedForm := do
  let start ← Read.offset
  let byte ← Read.byte
  match ElementType.ofCode? byte with
  | some .classType => return .classType
  | some .valueType => return .valueType
  | _ => Read.malformedAt start (.unknownElementType byte)

section Productions

variable (inner : Decode τ τ)

/-- Decodes a parameter.  The mark before variable arguments is not supported
and stays unread. -/
def parameter : Decode τ τ := do
  let next ← Read.peek
  if next = ElementType.sentinel.code then
    unsupported (← Read.offset) .sentinel
  else inner

def method : Decode τ (MethodSignature τ) := do
  let header ← Read.header .method
  let genericArity ← if header.isGeneric then Read.unsigned else pure 0
  let count ← Read.unsigned
  let returnType ← inner
  let parameters ← times count.toNat (parameter inner)
  return { header, genericArity, returnType, parameters }

/-- Decodes what follows the number of generic parameters of a method signature. -/
def methodTypes (header : Header) (genericArity : UInt32) : Decode τ (MethodSignature τ) := do
  let count ← Read.unsigned
  let returnType ← inner
  let parameters ← times count.toNat (parameter inner)
  return { header, genericArity, returnType, parameters }

/-- Only the header of a generic method is followed by a number of generic parameters. -/
theorem method_eq :
    method inner = (do
      let header ← Read.header .method
      if header.isGeneric then
        let genericArity ← Read.unsigned
        methodTypes inner header genericArity
      else methodTypes inner header 0) :=
  rfl

/-- Decodes the remainder of a modified type that starts at `start`.  The modifier
is always named as a class. -/
def modified (start : Nat) (isRequired : Bool) : Decode τ τ := do
  let modifier ← named builder .classType (← Read.offset)
  let unmodified ← inner
  call builder start (.optional (.modified modifier unmodified isRequired))

/-- Decodes the remainder of a production that starts at `start` with the given
element type. -/
def composite (start : Nat) : ElementType → Decode τ τ
  | .pointer => do
      call builder start (.core (.pointer (← inner)))
  | .array => do
      let element ← inner
      let dimensions ← Read.dimensions
      call builder start (.core (.array element dimensions))
  | .classType => named builder .classType start
  | .valueType => named builder .valueType start
  | .vector => do
      call builder start (.optional (.vector (← inner)))
  | .byReference => do
      call builder start (.optional (.byReference (← inner)))
  | .pinned => do
      call builder start (.optional (.pinned (← inner)))
  | .typeVariable => do
      call builder start (.optional (.typeVariable (← Read.unsigned)))
  | .methodVariable => do
      call builder start (.optional (.methodVariable (← Read.unsigned)))
  | .genericInstance => do
      let genericStart ← Read.offset
      let form ← namedForm
      let generic ← named builder form genericStart
      let count ← Read.unsigned
      let arguments ← times count.toNat inner
      call builder start (.optional (.genericInstance generic arguments))
  | .functionPointer => do
      call builder start (.optional (.functionPointer (← method inner)))
  | .requiredModifier => modified builder inner start true
  | .optionalModifier => modified builder inner start false
  | .typedReference => unsupported start .typedReference
  | .sentinel => Read.malformedAt start (.unknownElementType ElementType.sentinel.code)

/-- Decodes one production, whose parts are decoded by `inner`. -/
def production : Decode τ τ := do
  let start ← Read.offset
  let lead ← Read.byte
  match Primitive.ofCode? lead with
  | some code => call builder start (.core (.primitive code))
  | none =>
      match ElementType.ofCode? lead with
      | some element => composite builder inner start element
      | none => Read.malformedAt start (.unknownElementType lead)

end Productions

/-- Decodes a type with a number of levels left to it. -/
def typeWithin : Nat → Decode τ τ
  | 0 => Read.malformed .nestingTooDeep
  | levels + 1 => production builder (typeWithin levels)

def type : Decode τ τ :=
  typeWithin builder maxNesting

/-- Decodes a type up to the end of the blob. -/
def wholeType : Decode τ τ := do
  let type ← type builder
  Read.finish
  return type

def wholeField : Decode τ τ := do
  let _ ← Read.header .field
  wholeType builder

def wholeMethod : Decode τ (MethodSignature τ) := do
  let signature ← method (type builder)
  Read.finish
  return signature

end Decode

end TypeProjection.Signature

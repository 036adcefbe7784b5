import TypeProjection.Descriptor.Basic
import TypeProjection.Projection.Error
import TypeProjection.Signature.Decoder

/-!
# Descriptors from signatures

The builder of descriptors represents primitive types, handles, general arrays
and pointers, and declines everything else.  It does not record whether a handle
is introduced as a class or as a value type.
-/

namespace TypeProjection.Descriptor

open TypeProjection.Signature

def builder : Builder Descriptor where
  core
    | .primitive code => primitive code
    | .definition handle _ => named handle.toHandle
    | .reference handle _ => named handle.toHandle
    | .array element dimensions => array element dimensions
    | .pointer element => pointer element

def decode {α : Type} (decoder : Decode Descriptor α) (blob : List UInt8) :
    Except ProjectionError α :=
  (decoder.run (.start blob)).result.mapError .ofSignatureError

def decodeType : List UInt8 → Except ProjectionError Descriptor :=
  decode (Decode.wholeType builder)

def decodeField : List UInt8 → Except ProjectionError Descriptor :=
  decode (Decode.wholeField builder)

def decodeMethod : List UInt8 → Except ProjectionError (MethodSignature Descriptor) :=
  decode (Decode.wholeMethod builder)

end TypeProjection.Descriptor

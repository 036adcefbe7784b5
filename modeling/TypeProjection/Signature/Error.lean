import TypeProjection.Signature.Construct
import TypeProjection.Text.Numeral

/-!
# Decoding errors

A blob fails to decode either because it breaks the grammar of signatures or
because it uses a construct that the reader does not represent.  Both errors
carry the byte offset at which the failing production starts.
-/

namespace TypeProjection.Signature

/-- How a blob breaks the grammar. -/
inductive Malformation where
  | unexpectedEnd
  | invalidCompressedInteger
  | unknownElementType (byte : UInt8)
  | invalidCodedIndex (coded : UInt32)
  | unexpectedHeader (byte : UInt8)
  | invalidDimensions
  | trailingBytes (count : Nat)
  | nestingTooDeep
  deriving DecidableEq, Repr

/-- The message for a malformation, without its place. -/
def Malformation.message : Malformation → String
  | unexpectedEnd => "unexpected end of blob"
  | invalidCompressedInteger => "invalid compressed integer"
  | unknownElementType byte => "unknown element type 0x" ++ Text.upperHex 2 byte.toNat
  | invalidCodedIndex coded =>
      "invalid TypeDefOrRefOrSpec coded index 0x" ++ Text.upperHex 1 coded.toNat
  | unexpectedHeader byte =>
      "unexpected signature header 0x" ++ Text.upperHex 2 byte.toNat
  | invalidDimensions =>
      "array shape has no dimensions, or more sizes or bounds than dimensions"
  | trailingBytes count => toString count ++ " trailing byte(s) after signature"
  | nestingTooDeep => "signature nested too deeply"

inductive SignatureError where
  | malformed (offset : Nat) (reason : Malformation)
  | unsupported (offset : Nat) (construct : Construct)
  deriving DecidableEq, Repr

namespace SignatureError

/-- The offset at which the failing production starts. -/
def offset : SignatureError → Nat
  | malformed offset _ => offset
  | unsupported offset _ => offset

/-- The message for an error, with its place. -/
def message : SignatureError → String
  | malformed offset reason =>
      "malformed signature at byte " ++ toString offset ++ ": " ++ reason.message
  | unsupported offset construct =>
      construct.unsupportedMessage ++ " at byte " ++ toString offset

end SignatureError

end TypeProjection.Signature

import TypeProjection.Signature.Cursor

/-!
# Compressed integers

An integer of a signature takes one, two or four bytes.  The leading bits of
its first byte tell the width; all other bits, most significant byte first,
are the payload:

| first byte | width | payload bits |
|------------|-------|--------------|
| `0xxxxxxx` | 1     | 7            |
| `10xxxxxx` | 2     | 14           |
| `110xxxxx` | 4     | 29           |

A number may be written wider than it needs to be.  A signed number is stored
as its two's complement in the payload bits, rotated left by one, which puts
the sign into the lowest bit.
-/

namespace TypeProjection.Signature

def maxCompressed : UInt32 := 0x1FFFFFFF

/-- The number of bytes that a compressed integer takes. -/
inductive Width where
  | one
  | two
  | four
  deriving DecidableEq, Repr

namespace Width

def extraBytes : Width → Nat
  | one => 0
  | two => 1
  | four => 3

def payloadBits : Width → Nat
  | one => 7
  | two => 14
  | four => 29

/-- The leading bits, as the least first byte of this width. -/
def lead : Width → UInt8
  | one => 0x00
  | two => 0x80
  | four => 0xC0

/-- The width that a first byte announces. -/
def ofLead? (first : UInt8) : Option Width :=
  if first < 0x80 then some one
  else if first < 0xC0 then some two
  else if first < 0xE0 then some four
  else none

def payload (width : Width) (first : UInt8) (extra : List UInt8) : Nat :=
  extra.foldl (fun value byte => value * 256 + byte.toNat) (first.toNat - width.lead.toNat)

/-- What a set sign takes away: half the range of the payload. -/
def signWeight : Width → Int
  | one => 0x40
  | two => 0x2000
  | four => 0x10000000

/-- Undoes the rotation of a signed payload, whose lowest bit is the sign. -/
def signedPayload (width : Width) (payload : Nat) : Int :=
  if payload % 2 = 0 then (payload / 2 : Nat)
  else (payload / 2 : Nat) - width.signWeight

end Width

/-- A number in 32 bits with a sign, if it fits them. -/
def narrow? (number : Int) : Option Int32 :=
  if Int32.minValue.toInt ≤ number ∧ number ≤ Int32.maxValue.toInt then
    some (Int32.ofInt number)
  else none

namespace Read

/-- Reads one compressed form: its width and its payload. -/
def compressed : Read (Width × Nat) := do
  let start ← offset
  let first ← byte
  match Width.ofLead? first with
  | none => malformedAt start .invalidCompressedInteger
  | some width =>
      let extra ← times width.extraBytes byte
      return (width, width.payload first extra)

def unsigned : Read UInt32 := do
  let (_, payload) ← compressed
  return UInt32.ofNat payload

/-- Reads a compressed signed integer.  A number that does not fit 32 bits is refused
where its form starts. -/
def signed : Read Int32 := do
  let start ← offset
  let (width, payload) ← compressed
  match narrow? (width.signedPayload payload) with
  | some value => return value
  | none => malformedAt start .invalidCompressedInteger

end Read

end TypeProjection.Signature

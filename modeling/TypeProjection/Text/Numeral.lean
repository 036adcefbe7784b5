/-!
# Numerals

Decimal text comes from `toString`.  This module holds the hexadecimal text
of natural numbers, in the two spellings that metadata tokens and flag sets
use, and the reader of the second one.
-/

namespace TypeProjection.Text

/-- Lower-case hexadecimal digits without leading zeros; zero is one digit. -/
def lowerHex (number : Nat) : String :=
  String.ofList (Nat.toDigits 16 number)

/-- Upper-case hexadecimal digits, filled with zeros up to `width` digits. -/
def upperHex (width number : Nat) : String :=
  String.ofList (((Nat.toDigits 16 number).map Char.toUpper).leftpad width '0')

/-- The value of a hexadecimal digit of either case. -/
def hexDigit? (char : Char) : Option Nat :=
  if '0' ≤ char ∧ char ≤ '9' then some (char.toNat - '0'.toNat)
  else if 'a' ≤ char ∧ char ≤ 'f' then some (char.toNat - 'a'.toNat + 10)
  else if 'A' ≤ char ∧ char ≤ 'F' then some (char.toNat - 'A'.toNat + 10)
  else none

/-- Reads digits from the most significant one on, starting from `value`. -/
def readHexDigits? (value : Nat) : List Char → Option Nat
  | [] => some value
  | char :: rest => do
      let digit ← hexDigit? char
      readHexDigits? (value * 16 + digit) rest

/-- Reads a hexadecimal number: at least one digit after an optional plus. -/
def readHex? (text : List Char) : Option Nat :=
  let digits := match text with
    | '+' :: rest => rest
    | _ => text
  if digits.isEmpty then none else readHexDigits? 0 digits

end TypeProjection.Text

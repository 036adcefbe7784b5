import Mathlib.Algebra.Ring.Int.Defs
import Mathlib.Algebra.Ring.Nat
import TypeProjection.Proofs.Signature.IntegerReading

/-!
# Reading compressed signed integers

The payload of a signed number is its two's complement, rotated left by one, so that the
sign stands in the lowest bit.  What a set sign takes away depends on the width of the form
and not on the number: one payload means different numbers in different widths.  A signed
number is read from its forms alone, and its reading fails as that of an unsigned number
does.
-/

namespace TypeProjection.Signature

namespace Width

/-- The number is one that the bits of the payload hold as a two's complement. -/
def Holds (width : Width) (value : Int) : Prop :=
  -2 ^ (width.payloadBits - 1) ≤ value ∧ value < 2 ^ (width.payloadBits - 1)

/-- The bytes of a signed number: the form of its two's complement, rotated left by one in
the bits of the payload. -/
def signedForm (width : Width) (value : Int) : List UInt8 :=
  width.form ((BitVec.ofInt width.payloadBits value).rotateLeft 1).toNat

theorem holds_iff {width : Width} {value : Int} :
    width.Holds value ↔ -width.signWeight ≤ value ∧ value < width.signWeight := by
  cases width <;> rfl

/-- Rotating by one carries the highest bit around to the lowest place. -/
theorem toNat_rotateLeft_one {bits : Nat} (hbits : 1 < bits) (pattern : BitVec bits) :
    (pattern.rotateLeft 1).toNat =
      2 * pattern.toNat % 2 ^ bits + 2 * pattern.toNat / 2 ^ bits := by
  obtain ⟨rest, rfl⟩ : ∃ rest, bits = rest + 1 := ⟨bits - 1, by omega⟩
  have hpower : 2 ^ (rest + 1) = 2 * 2 ^ rest := Nat.pow_succ'
  have hcarry : pattern.toNat / 2 ^ rest < 2 ^ 1 := by
    rw [Nat.div_lt_iff_lt_mul (Nat.two_pow_pos rest)]
    exact hpower ▸ pattern.isLt
  have hjoin : 2 * (pattern.toNat % 2 ^ rest) + pattern.toNat / 2 ^ rest =
      2 * (pattern.toNat % 2 ^ rest) ||| pattern.toNat / 2 ^ rest := by
    have hdisjoint := Nat.shiftLeft_add_eq_or_of_lt hcarry (pattern.toNat % 2 ^ rest)
    rw [Nat.shiftLeft_eq, Nat.pow_one, Nat.mul_comm] at hdisjoint
    exact hdisjoint
  rw [BitVec.toNat_rotateLeft, Nat.mod_eq_of_lt hbits, Nat.add_sub_cancel,
    Nat.shiftRight_eq_div_pow, Nat.shiftLeft_eq, Nat.pow_one, Nat.mul_comm _ 2, hpower,
    Nat.mul_mod_mul_left, Nat.mul_div_mul_left _ _ Nat.two_pos]
  exact hjoin.symm

theorem signedForm_eq (width : Width) (value : Int) :
    width.signedForm value = width.form (width.rotated value) := by
  have hcapacity : width.capacity = 2 ^ width.payloadBits := by cases width <;> rfl
  have hbits : 1 < width.payloadBits := by cases width <;> decide
  rw [signedForm, toNat_rotateLeft_one hbits, BitVec.toNat_ofInt, rotated, hcapacity]

theorem length_signedForm (width : Width) (value : Int) :
    (width.signedForm value).length = width.byteCount :=
  width.length_form _

theorem byteCount_injective {left right : Width} (hcount : left.byteCount = right.byteCount) :
    left = right := by
  revert hcount
  cases left <;> cases right <;> decide

/-- Payloads with the same form are the same. -/
theorem form_injective {width : Width} {left right : Nat} (hleft : left < width.capacity)
    (hright : right < width.capacity) (hform : width.form left = width.form right) :
    left = right := by
  obtain ⟨first, extra, hleftForm, -, -, hleftPayload⟩ := width.payload_form hleft
  obtain ⟨_, _, hrightForm, -, -, hrightPayload⟩ := width.payload_form hright
  rw [hleftForm, hrightForm] at hform
  cases hform
  exact hleftPayload.symm.trans hrightPayload

/-- In one width, different numbers have different bytes. -/
theorem signedForm_injective {width : Width} {left right : Int} (hleft : width.Holds left)
    (hright : width.Holds right) (hform : width.signedForm left = width.signedForm right) :
    left = right := by
  rw [signedForm_eq, signedForm_eq] at hform
  rw [holds_iff] at hleft hright
  have hrotated := form_injective (width.rotated_lt hleft.1 hleft.2)
    (width.rotated_lt hright.1 hright.2) hform
  have hvalue := (signedPayload_eq_iff (width.rotated_lt hleft.1 hleft.2)).mpr ⟨hleft, rfl⟩
  rw [hrotated] at hvalue
  exact hvalue.symm.trans
    ((signedPayload_eq_iff (width.rotated_lt hright.1 hright.2)).mpr ⟨hright, rfl⟩)

end Width

theorem signedForm_iff {number : Int32} {bytes : List UInt8} :
    SignedForm number bytes ↔
      ∃ width : Width, width.Holds number.toInt ∧ bytes = width.signedForm number.toInt := by
  simp only [SignedForm, Width.holds_iff, Width.signedForm_eq]

namespace Read

open Decode

/-- What is done with a value afterwards changes neither the error nor the place. -/
theorem run_bind_pure {α β : Type} (read : Read α) (f : α → β) (cursor : Cursor) :
    (read >>= fun value => pure (f value)).run cursor =
      ((read.run cursor).1.map f, (read.run cursor).2) := by
  rw [run_bind]
  rcases read.run cursor with ⟨error | value, after⟩
  · rfl
  · rfl

theorem run_signed (cursor : Cursor) :
    signed.run cursor =
      ((compressed.run cursor).1.map fun read => Int32.ofInt (read.1.signedPayload read.2),
        (compressed.run cursor).2) := by
  rw [signed_eq]
  exact run_bind_pure compressed _ cursor

theorem run_unsigned (cursor : Cursor) :
    unsigned.run cursor =
      ((compressed.run cursor).1.map fun read => UInt32.ofNat read.2,
        (compressed.run cursor).2) :=
  run_bind_pure compressed _ cursor

/-- A signed number is read from each of its forms, which is passed. -/
theorem run_signed_form {width : Width} {number : Int32} (hnumber : width.Holds number.toInt)
    (start : Nat) (rest : List UInt8) :
    signed.run ⟨start, width.signedForm number.toInt ++ rest⟩ =
      (.ok number, ⟨start + width.byteCount, rest⟩) := by
  have hpasses : Cursor.Passes ⟨start, width.signedForm number.toInt ++ rest⟩
      (width.signedForm number.toInt) ⟨start + width.byteCount, rest⟩ :=
    ⟨rfl, by rw [Width.length_signedForm]⟩
  have hyields := (recognizes_signed (τ := Unit) _ _ _).mpr
    ⟨_, signedForm_iff.mpr ⟨width, hnumber, rfl⟩, hpasses⟩
  exact yields_lift_iff.mp hyields

/-- Whatever is read was written in a form. -/
theorem form_of_run_signed {start : Nat} {bytes : List UInt8} {number : Int32}
    {after : Cursor} (hrun : signed.run ⟨start, bytes⟩ = (.ok number, after)) :
    ∃ (width : Width) (rest : List UInt8), width.Holds number.toInt ∧
      bytes = width.signedForm number.toInt ++ rest ∧
        after = ⟨start + width.byteCount, rest⟩ := by
  obtain ⟨_, hform, hpasses⟩ :=
    (recognizes_signed (τ := Unit) _ _ _).mp (yields_lift_iff.mpr hrun)
  obtain ⟨width, hholds, rfl⟩ := signedForm_iff.mp hform
  have hoffset := hpasses.offset
  rw [Width.length_signedForm] at hoffset
  exact ⟨width, after.rest, hholds, hpasses.rest, congrArg (Cursor.mk · after.rest) hoffset⟩

structure SignedExactly (start : Nat) : Prop where
  /-- From the form of a number in any width that holds it, whatever follows, the number is
  read and the bytes of that width are passed. -/
  forms : ∀ (width : Width) (value : Int) (rest : List UInt8), width.Holds value →
    ∃ number : Int32, number.toInt = value ∧
      signed.run ⟨start, width.signedForm value ++ rest⟩ =
        (.ok number, ⟨start + width.byteCount, rest⟩)
  /-- Whatever is read is the one number that has the passed bytes as its form. -/
  written : ∀ bytes (number : Int32) after,
    signed.run ⟨start, bytes⟩ = (.ok number, after) →
      ∃ (width : Width) (rest : List UInt8), width.Holds number.toInt ∧
        bytes = width.signedForm number.toInt ++ rest ∧
        after = ⟨start + width.byteCount, rest⟩ ∧
        ∀ other, width.Holds other →
          width.signedForm other = width.signedForm number.toInt → other = number.toInt
  /-- In one width, different bytes are read as different numbers. -/
  distinct : ∀ (width : Width) (left right rest rest' : List UInt8) (number : Int32),
    signed.run ⟨start, left ++ rest⟩ = (.ok number, ⟨start + width.byteCount, rest⟩) →
    signed.run ⟨start, right ++ rest'⟩ = (.ok number, ⟨start + width.byteCount, rest'⟩) →
      left = right
  /-- A signed number is read where an unsigned one is, and up to the same place. -/
  succeeds : ∀ bytes after,
    (∃ number, signed.run ⟨start, bytes⟩ = (.ok number, after)) ↔
      ∃ number, unsigned.run ⟨start, bytes⟩ = (.ok number, after)
  /-- Reading fails as it does for an unsigned number, and up to the same place. -/
  fails : ∀ bytes error after,
    signed.run ⟨start, bytes⟩ = (.error error, after) ↔
      unsigned.run ⟨start, bytes⟩ = (.error error, after)
  /-- What stands in a form is never refused for its size. -/
  fits : ∀ bytes width payload after,
    compressed.run ⟨start, bytes⟩ = (.ok (width, payload), after) →
      narrow? (width.signedPayload payload) ≠ none

/-- Compressed signed integers are decoded exactly, wherever in a blob they stand. -/
theorem signed_exact (start : Nat) : SignedExactly start where
  forms width value rest hholds := by
    have hweight := width.signWeight_le
    have hrange := Width.holds_iff.mp hholds
    have hnumber : (Int32.ofInt value).toInt = value :=
      Int32.toInt_ofInt_of_le (by omega) (by omega)
    have hnumberHolds : width.Holds (Int32.ofInt value).toInt := by rwa [hnumber]
    have hrun := run_signed_form hnumberHolds start rest
    rw [hnumber] at hrun
    exact ⟨Int32.ofInt value, hnumber, hrun⟩
  written bytes number after hrun := by
    obtain ⟨width, rest, hholds, hbytes, hafter⟩ := form_of_run_signed hrun
    refine ⟨width, rest, hholds, hbytes, hafter, ?_⟩
    intro other hother hform
    exact Width.signedForm_injective hother hholds hform
  distinct width left right rest rest' number hleft hright := by
    have hconsumed {bytes tail : List UInt8}
        (hrun : signed.run ⟨start, bytes ++ tail⟩ =
          (.ok number, ⟨start + width.byteCount, tail⟩)) :
        bytes = width.signedForm number.toInt := by
      obtain ⟨other, rest, -, hbytes, hafter⟩ := form_of_run_signed hrun
      obtain ⟨hoffset, rfl⟩ := Cursor.mk.inj hafter
      obtain rfl := Width.byteCount_injective (Nat.add_left_cancel hoffset)
      exact List.append_cancel_right hbytes
    exact (hconsumed hleft).trans (hconsumed hright).symm
  succeeds bytes after := by
    rw [run_signed, run_unsigned]
    rcases compressed.run ⟨start, bytes⟩ with ⟨error | read, place⟩ <;> simp [Except.map]
  fails bytes error after := by
    rw [run_signed, run_unsigned]
    rcases compressed.run ⟨start, bytes⟩ with ⟨error | read, place⟩ <;> simp [Except.map]
  fits bytes width payload after hrun := by
    rw [narrow?_signedPayload (lt_capacity_of_compressed hrun)]
    exact Option.some_ne_none _

/-- The least number of two bytes, before another byte. -/
theorem signed_exact_least :
    signed.run ⟨0, [0x80, 0x01, 0xFF]⟩ = (.ok (-0x2000), ⟨2, [0xFF]⟩) := by
  obtain ⟨number, hnumber, hrun⟩ :=
    (signed_exact 0).forms .two (-0x2000) [0xFF] (Width.holds_iff.mpr (by decide))
  obtain rfl : number = -0x2000 := Int32.toInt_inj.mp hnumber
  exact hrun

end Read

end TypeProjection.Signature

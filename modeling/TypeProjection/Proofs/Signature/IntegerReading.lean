import TypeProjection.Proofs.Signature.SelfDelimiting
import TypeProjection.Proofs.Signature.Exactness

/-!
# Reading compressed integers

What a compressed integer is read from, and how its reading fails.  Any bytes either
start with a form, or start with a byte that announces no form, or end before the form
that they start does.  The reader tells these three cases apart and loses no byte.
-/

namespace TypeProjection.Signature

namespace Width

def byteCount : Width → Nat
  | one => 1
  | two => 2
  | four => 4

theorem length_form (width : Width) (number : Nat) :
    (width.form number).length = width.byteCount := by
  cases width <;> rfl

end Width

/-- The bytes start a form and end before it does. -/
def CutForm (bytes : List UInt8) : Prop :=
  ∃ (width : Width) (number : Nat) (lost : List UInt8),
    number < width.capacity ∧ lost ≠ [] ∧ width.form number = bytes ++ lost

theorem cutForm_nil : CutForm [] :=
  ⟨.one, 0, Width.one.form 0, by decide, by decide, rfl⟩

/-- Bytes after a first byte that announces a form hold the rest of it or end before. -/
theorem form_or_cutForm {lead : UInt8} {width : Width} (hlead : Width.ofLead? lead = some width)
    (tail : List UInt8) :
    (∃ number rest, number < width.capacity ∧ lead :: tail = width.form number ++ rest) ∨
      CutForm (lead :: tail) := by
  by_cases hlength : width.extraBytes ≤ tail.length
  · left
    have hextra : (tail.take width.extraBytes).length = width.extraBytes :=
      List.length_take_of_le hlength
    obtain ⟨hnumber, hform⟩ := Width.form_payload hlead hextra
    refine ⟨_, tail.drop width.extraBytes, hnumber, ?_⟩
    rw [hform, List.cons_append, List.take_append_drop]
  · right
    -- Any bytes complete the form; zeros are as good as others.
    let lost : List UInt8 := List.replicate (width.extraBytes - tail.length) 0
    have hextra : (tail ++ lost).length = width.extraBytes := by
      rw [List.length_append, List.length_replicate]
      omega
    obtain ⟨hnumber, hform⟩ := Width.form_payload hlead hextra
    refine ⟨width, _, lost, hnumber, ?_, hform⟩
    intro hnone
    rw [hnone, List.append_nil] at hextra
    omega

/-- The three ways in which bytes may start. -/
theorem form_or_invalid_or_cutForm (bytes : List UInt8) :
    (∃ (width : Width) (number : Nat) (rest : List UInt8),
      number < width.capacity ∧ bytes = width.form number ++ rest) ∨
    (∃ lead rest, bytes = lead :: rest ∧ 0xE0 ≤ lead) ∨ CutForm bytes := by
  cases bytes with
  | nil => exact .inr (.inr cutForm_nil)
  | cons lead tail =>
      cases hlead : Width.ofLead? lead with
      | none => exact .inr (.inl ⟨lead, tail, rfl, Width.ofLead?_eq_none_iff.mp hlead⟩)
      | some width =>
          rcases form_or_cutForm hlead tail with ⟨number, rest, hform⟩ | hcut
          · exact .inl ⟨width, number, rest, hform⟩
          · exact .inr (.inr hcut)

namespace Decode

variable {τ α : Type}

/-- What recognizes forms by their values runs out of bytes where a form is cut. -/
theorem runsOut_of_recognizes {computation : Decode τ α} {language : α → List UInt8 → Prop}
    (hrecognizes : computation.Recognizes language) (hdelimits : computation.SelfDelimiting)
    {value : α} {cut lost : List UInt8} (hform : language value (cut ++ lost))
    (hlost : lost ≠ []) (start : Nat) :
    computation.Fails ⟨start, cut⟩ (.malformed (start + cut.length) .unexpectedEnd)
      ⟨start + cut.length, []⟩ := by
  have hwhole : Cursor.Passes ⟨start, cut ++ lost⟩ (cut ++ lost)
      ⟨start + (cut ++ lost).length, []⟩ := ⟨(List.append_nil _).symm, rfl⟩
  have hyields := (hrecognizes _ _ _).mpr ⟨_, hform, hwhole⟩
  obtain ⟨word, hpasses, hword⟩ := hdelimits _ _ _ hyields
  have hsame : word = cut ++ lost := by
    have hrest := hpasses.rest
    rw [List.append_nil] at hrest
    exact hrest.symm
  exact hword.runsOut cut lost hsame hlost

/-- A first byte that announces no form is passed and refused. -/
theorem fails_compressed_of_invalid {lead : UInt8} (hlead : 0xE0 ≤ lead) (start : Nat)
    (rest : List UInt8) :
    (liftM Read.compressed : Decode τ (Width × Nat)).Fails ⟨start, lead :: rest⟩
      (.malformed start .invalidCompressedInteger) ⟨start + 1, rest⟩ := by
  have hbyte : (liftM Read.byte : Decode τ UInt8).Yields ⟨start, lead :: rest⟩ lead
      ⟨start + 1, rest⟩ := yields_byte_iff.mpr ⟨rfl, rfl⟩
  simp only [Read.compressed, liftM_bind, fails_offset_iff]
  refine fails_bind_iff.mpr (.inr ⟨lead, _, hbyte, ?_⟩)
  simp only [Width.ofLead?_eq_none_iff.mpr hlead]
  exact fails_malformedAt_iff.mpr ⟨rfl, rfl⟩

end Decode

namespace Read

open Decode

/-- A number is read from each of its forms, which is passed. -/
theorem run_unsigned_form {width : Width} {value : UInt32}
    (hvalue : value.toNat < width.capacity) (start : Nat) (rest : List UInt8) :
    unsigned.run ⟨start, width.form value.toNat ++ rest⟩ =
      (.ok value, ⟨start + width.byteCount, rest⟩) := by
  have hpasses : Cursor.Passes ⟨start, width.form value.toNat ++ rest⟩
      (width.form value.toNat) ⟨start + width.byteCount, rest⟩ :=
    ⟨rfl, by rw [Width.length_form]⟩
  have hyields := (recognizes_unsigned (τ := Unit) _ _ _).mpr
    ⟨_, ⟨width, hvalue, rfl⟩, hpasses⟩
  exact yields_lift_iff.mp hyields

theorem run_unsigned_invalid {lead : UInt8} (hlead : 0xE0 ≤ lead) (start : Nat)
    (rest : List UInt8) :
    unsigned.run ⟨start, lead :: rest⟩ =
      (.error (.malformed start .invalidCompressedInteger), ⟨start + 1, rest⟩) := by
  have hfails := fails_compressed_of_invalid (τ := Unit) hlead start rest
  exact run_bind_error (fails_lift_iff.mp hfails)

theorem run_unsigned_cut {bytes : List UInt8} (hcut : CutForm bytes) (start : Nat) :
    unsigned.run ⟨start, bytes⟩ =
      (.error (.malformed (start + bytes.length) .unexpectedEnd),
        ⟨start + bytes.length, []⟩) := by
  obtain ⟨width, number, lost, hnumber, hlost, hform⟩ := hcut
  obtain ⟨value, -, hvalue⟩ := exists_unsignedForm ⟨width, hnumber, hform.symm⟩
  have hfails := runsOut_of_recognizes (τ := Unit) recognizes_unsigned selfDelimiting_unsigned
    hvalue hlost start
  exact fails_lift_iff.mp hfails

/-- Reading fails for its first byte or for bytes that are missing, and in no other way. -/
theorem run_unsigned_error {start : Nat} {bytes : List UInt8} {error : SignatureError}
    {after : Cursor} (hrun : unsigned.run ⟨start, bytes⟩ = (.error error, after)) :
    (∃ lead rest, bytes = lead :: rest ∧ 0xE0 ≤ lead ∧
      error = .malformed start .invalidCompressedInteger ∧ after = ⟨start + 1, rest⟩) ∨
    (CutForm bytes ∧ error = .malformed (start + bytes.length) .unexpectedEnd ∧
      after = ⟨start + bytes.length, []⟩) := by
  rcases form_or_invalid_or_cutForm bytes with
    ⟨width, number, rest, hnumber, rfl⟩ | ⟨lead, rest, rfl, hlead⟩ | hcut
  · obtain ⟨value, rfl, -⟩ := exists_unsignedForm ⟨width, hnumber, rfl⟩
    rw [run_unsigned_form hnumber] at hrun
    cases hrun
  · rw [run_unsigned_invalid hlead] at hrun
    cases hrun
    exact .inl ⟨lead, rest, rfl, hlead, rfl, rfl⟩
  · rw [run_unsigned_cut hcut] at hrun
    cases hrun
    exact .inr ⟨hcut, rfl, rfl⟩

theorem le_maxCompressed {width : Width} {value : UInt32}
    (hvalue : value.toNat < width.capacity) : value ≤ maxCompressed := by
  rw [UInt32.le_iff_toNat_le]
  exact Nat.le_of_lt_succ (Nat.lt_of_lt_of_le hvalue width.capacity_le)

/-- Compressed unsigned integers are decoded exactly, behind any bytes that were passed
before.  From the form of a number in any width that can hold it, whatever follows, the
number is read and the bytes of that width are passed; and whatever is read was written so.
A byte that announces no form is passed and refused where it stands.  Where a form is cut
short, with no byte of it left or with some, all is passed and the end of the blob is
reported.  There are no other failures. -/
theorem unsigned_exact (passed : List UInt8) :
    (∀ (width : Width) (value : UInt32) (rest : List UInt8), value.toNat < width.capacity →
      unsigned.run ⟨passed.length, width.form value.toNat ++ rest⟩ =
        (.ok value, ⟨passed.length + width.byteCount, rest⟩)) ∧
    (∀ bytes value after, unsigned.run ⟨passed.length, bytes⟩ = (.ok value, after) →
      value ≤ maxCompressed ∧ ∃ (width : Width) (rest : List UInt8),
        value.toNat < width.capacity ∧ bytes = width.form value.toNat ++ rest ∧
          after = ⟨passed.length + width.byteCount, rest⟩) ∧
    (∀ bytes offset after, unsigned.run ⟨passed.length, bytes⟩ =
        (.error (.malformed offset .invalidCompressedInteger), after) ↔
      ∃ lead rest, bytes = lead :: rest ∧ 0xE0 ≤ lead ∧
        offset = passed.length ∧ after = ⟨passed.length + 1, rest⟩) ∧
    (∀ bytes offset after, unsigned.run ⟨passed.length, bytes⟩ =
        (.error (.malformed offset .unexpectedEnd), after) ↔
      CutForm bytes ∧ offset = (passed ++ bytes).length ∧
        after = ⟨(passed ++ bytes).length, []⟩) ∧
    (∀ bytes error after, unsigned.run ⟨passed.length, bytes⟩ = (.error error, after) →
      ∃ offset, error = .malformed offset .invalidCompressedInteger ∨
        error = .malformed offset .unexpectedEnd) := by
  refine ⟨?_, ?_, ?_, ?_, ?_⟩
  · intro width value rest hvalue
    exact run_unsigned_form hvalue passed.length rest
  · intro bytes value after hrun
    obtain ⟨_, ⟨width, hvalue, rfl⟩, hpasses⟩ :=
      (recognizes_unsigned (τ := Unit) _ _ _).mp (yields_lift_iff.mpr hrun)
    refine ⟨le_maxCompressed hvalue, width, after.rest, hvalue, hpasses.rest, ?_⟩
    have hoffset := hpasses.offset
    rw [Width.length_form] at hoffset
    exact congrArg (Cursor.mk · after.rest) hoffset
  · intro bytes offset after
    constructor
    · intro hrun
      rcases run_unsigned_error hrun with ⟨lead, rest, hbytes, hlead, herror, hafter⟩ | hcut
      · exact ⟨lead, rest, hbytes, hlead, (SignatureError.malformed.inj herror).1, hafter⟩
      · cases hcut.2.1
    · rintro ⟨lead, rest, rfl, hlead, rfl, rfl⟩
      exact run_unsigned_invalid hlead passed.length rest
  · intro bytes offset after
    rw [List.length_append]
    constructor
    · intro hrun
      rcases run_unsigned_error hrun with ⟨_, _, _, _, herror, _⟩ | ⟨hcut, herror, hafter⟩
      · cases herror
      · exact ⟨hcut, (SignatureError.malformed.inj herror).1, hafter⟩
    · rintro ⟨hcut, rfl, rfl⟩
      exact run_unsigned_cut hcut passed.length
  · intro bytes error after hrun
    rcases run_unsigned_error hrun with ⟨_, _, _, _, rfl, _⟩ | ⟨_, rfl, _⟩
    · exact ⟨_, .inl rfl⟩
    · exact ⟨_, .inr rfl⟩

/-- The number three in two bytes, wider than it needs to be, behind one byte and before
another; and four bytes announced where two are left. -/
theorem unsigned_exact_padded :
    unsigned.run ⟨1, [0x80, 0x03, 0xFF]⟩ = (.ok 3, ⟨3, [0xFF]⟩) ∧
      unsigned.run ⟨1, [0xC0, 0x00]⟩ = (.error (.malformed 3 .unexpectedEnd), ⟨3, []⟩) := by
  obtain ⟨hforms, -, -, hcut, -⟩ := unsigned_exact [0x0F]
  constructor
  · exact hforms .two 3 [0xFF] (by decide)
  · exact (hcut [0xC0, 0x00] _ _).mpr
      ⟨⟨.four, 0, [0x00, 0x00], by decide, by decide, rfl⟩, rfl, rfl⟩

end Read

end TypeProjection.Signature

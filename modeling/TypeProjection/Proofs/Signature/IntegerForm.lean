import TypeProjection.Proofs.Signature.Passage
import TypeProjection.Signature.Compressed

/-!
# Forms of compressed integers

The written side of the compressed integers.  A number has one form in every
width that can hold it, minimal or not, and the reader accepts exactly these
forms.
-/

namespace TypeProjection.Signature

namespace Width

/-- The number of payloads of a width. -/
def capacity : Width → Nat
  | one => 0x80
  | two => 0x4000
  | four => 0x20000000

/-- The bytes of a payload: the leading bits, then the payload with its most
significant byte first. -/
def form : Width → Nat → List UInt8
  | one, payload => [.ofNat payload]
  | two, payload => [.ofNat (0x80 + payload / 0x100), .ofNat payload]
  | four, payload =>
      [.ofNat (0xC0 + payload / 0x1000000), .ofNat (payload / 0x10000),
        .ofNat (payload / 0x100), .ofNat payload]

/-- The payload of a signed number: its two's complement in the bits of the
payload, rotated left by one. -/
def rotated (width : Width) (value : Int) : Nat :=
  let pattern := (value % width.capacity).toNat
  2 * pattern % width.capacity + 2 * pattern / width.capacity

theorem signWeight_le (width : Width) : width.signWeight ≤ 0x10000000 := by
  cases width <;> decide

theorem capacity_le (width : Width) : width.capacity ≤ 0x20000000 := by
  cases width <;> decide

/-- The width that a first byte announces, by the number that the byte is. -/
theorem ofLead?_eq (first : UInt8) :
    ofLead? first =
      if first.toNat < 0x80 then some one
      else if first.toNat < 0xC0 then some two
      else if first.toNat < 0xE0 then some four
      else none := by
  simp only [ofLead?, UInt8.lt_iff_toNat_lt]
  rfl

theorem ofLead?_eq_none_iff {first : UInt8} : ofLead? first = none ↔ 0xE0 ≤ first := by
  rw [ofLead?_eq, UInt8.le_iff_toNat_le]
  change _ ↔ 0xE0 ≤ first.toNat
  split
  · simp; omega
  split
  · simp; omega
  split
  · simp; omega
  · simp; omega

/-- A form announces its width and holds its payload. -/
theorem payload_form (width : Width) {number : Nat} (hnumber : number < width.capacity) :
    ∃ first extra, width.form number = first :: extra ∧ ofLead? first = some width ∧
      extra.length = width.extraBytes ∧ width.payload first extra = number := by
  refine ⟨_, _, (List.cons_head_tail (by cases width <;> simp [form])).symm, ?_, ?_, ?_⟩
  · rw [ofLead?_eq]
    cases width <;> simp only [capacity] at hnumber <;>
      simp only [form, List.head_cons, UInt8.toNat_ofNat']
    · rw [if_pos (by omega)]
    · rw [if_neg (by omega), if_pos (by omega)]
    · rw [if_neg (by omega), if_neg (by omega), if_pos (by omega)]
  · cases width <;> rfl
  · cases width <;> simp only [capacity] at hnumber <;>
      simp [form, payload, lead] <;> omega

/-- Bytes of an announced width are the form of their payload. -/
theorem form_payload {width : Width} {first : UInt8} {extra : List UInt8}
    (hfirst : ofLead? first = some width) (hextra : extra.length = width.extraBytes) :
    width.payload first extra < width.capacity ∧
      width.form (width.payload first extra) = first :: extra := by
  have hbyte := first.toNat_lt
  rw [ofLead?_eq] at hfirst
  split at hfirst
  · cases hfirst
    obtain rfl := List.length_eq_zero_iff.mp hextra
    simp [form, payload, lead, capacity]
    assumption
  split at hfirst
  · cases hfirst
    obtain ⟨second, rfl⟩ := List.length_eq_one_iff.mp hextra
    have hsecond := second.toNat_lt
    simp [form, payload, lead, capacity, ← UInt8.toNat_inj]
    omega
  split at hfirst
  · cases hfirst
    obtain ⟨second, extra, rfl⟩ := List.exists_cons_of_length_eq_add_one hextra
    obtain ⟨third, extra, rfl⟩ :=
      List.exists_cons_of_length_eq_add_one (Nat.add_right_cancel hextra)
    obtain ⟨fourth, rfl⟩ := List.length_eq_one_iff.mp
      (Nat.add_right_cancel (Nat.add_right_cancel hextra))
    have hsecond := second.toNat_lt
    have hthird := third.toNat_lt
    have hfourth := fourth.toNat_lt
    simp [form, payload, lead, capacity, ← UInt8.toNat_inj]
    omega
  · cases hfirst

/-- Half of the payloads of a width have the sign set. -/
theorem capacity_eq (width : Width) : (width.capacity : Int) = 2 * width.signWeight := by
  cases width <;> rfl

theorem rotated_of_nonneg {width : Width} {value : Int} (hnonneg : 0 ≤ value)
    (hvalue : value < width.signWeight) : (width.rotated value : Int) = 2 * value := by
  have hcapacity := width.capacity_eq
  have hpattern : value % width.capacity = value :=
    Int.emod_eq_of_lt hnonneg (by omega)
  simp only [rotated]
  rw [hpattern, Nat.mod_eq_of_lt (by omega), Nat.div_eq_of_lt (by omega)]
  omega

theorem rotated_of_neg {width : Width} {value : Int} (hneg : value < 0)
    (hvalue : -width.signWeight ≤ value) :
    (width.rotated value : Int) = 2 * (value + width.signWeight) + 1 := by
  have hcapacity := width.capacity_eq
  have hpattern : value % width.capacity = value + width.capacity := by
    calc
      value % width.capacity = (value + width.capacity) % width.capacity :=
        (Int.add_emod_right _ _).symm
      _ = value + width.capacity := Int.emod_eq_of_lt (by omega) (by omega)
  -- The sign is the one bit that the rotation carries around.
  have hcarry : 2 * (value + width.capacity).toNat / width.capacity = 1 :=
    Nat.div_eq_of_lt_le (by omega) (by omega)
  have hrest : 2 * (value + width.capacity).toNat % width.capacity =
      2 * (value + width.capacity).toNat - width.capacity := by
    rw [Nat.mod_eq_sub_mod (by omega), Nat.mod_eq_of_lt (by omega)]
  simp only [rotated]
  rw [hpattern, hcarry, hrest]
  omega

theorem rotated_lt (width : Width) {value : Int} (hlow : -width.signWeight ≤ value)
    (hhigh : value < width.signWeight) : width.rotated value < width.capacity := by
  have hcapacity := width.capacity_eq
  by_cases hsign : 0 ≤ value
  · have hrotated := rotated_of_nonneg hsign hhigh
    omega
  · have hrotated := rotated_of_neg (by omega) hlow
    omega

/-- Undoing the rotation inverts it on the numbers that the width can hold. -/
theorem signedPayload_eq_iff {width : Width} {number : Nat}
    (hnumber : number < width.capacity) {value : Int} :
    width.signedPayload number = value ↔
      (-width.signWeight ≤ value ∧ value < width.signWeight) ∧
        number = width.rotated value := by
  have hcapacity := width.capacity_eq
  have hnonneg (hsign : 0 ≤ value) (hvalue : value < width.signWeight) :=
    rotated_of_nonneg hsign hvalue
  have hneg (hsign : value < 0) (hvalue : -width.signWeight ≤ value) :=
    rotated_of_neg hsign hvalue
  rw [signedPayload]
  split <;> omega

end Width

/-- Every signed number that a width can hold fits 32 bits. -/
theorem narrow?_signedPayload {width : Width} {number : Nat}
    (hnumber : number < width.capacity) :
    narrow? (width.signedPayload number) =
      some (Int32.ofInt (width.signedPayload number)) := by
  obtain ⟨⟨hlow, hhigh⟩, -⟩ := (Width.signedPayload_eq_iff hnumber).mp rfl
  have hweight := width.signWeight_le
  have hmin : Int32.minValue.toInt = -0x80000000 := rfl
  have hmax : Int32.maxValue.toInt = 0x7FFFFFFF := rfl
  rw [narrow?, if_pos ⟨by omega, by omega⟩]

/-- A number is written in some width that can hold it. -/
def IntegerForm (number : Nat) (bytes : List UInt8) : Prop :=
  ∃ width : Width, number < width.capacity ∧ bytes = width.form number

/-- An unsigned number is written in some width that can hold it. -/
def UnsignedForm (number : UInt32) (bytes : List UInt8) : Prop :=
  IntegerForm number.toNat bytes

/-- A signed number is written, rotated, in some width that can hold it. -/
def SignedForm (number : Int32) (bytes : List UInt8) : Prop :=
  ∃ width : Width, (-width.signWeight ≤ number.toInt ∧ number.toInt < width.signWeight) ∧
    bytes = width.form (width.rotated number.toInt)

namespace Decode

variable {τ : Type}

/-- The bytes after the first are read as they are. -/
theorem recognizes_byte :
    (liftM Read.byte : Decode τ UInt8).Recognizes fun byte bytes => bytes = [byte] := by
  intro cursor byte after
  rw [yields_byte_iff]
  simp

theorem sequence_bytes_iff {values bytes : List UInt8} :
    Sequence (fun (byte : UInt8) bytes => bytes = [byte]) values bytes ↔ bytes = values := by
  constructor
  · intro hsequence
    induction hsequence with
    | nil => rfl
    | cons hitem _ ih => rw [hitem, ih, List.singleton_append]
  · rintro rfl
    induction bytes with
    | nil => exact .nil
    | cons byte bytes ih =>
        rw [← List.singleton_append]
        exact .cons rfl ih

/-- Compressed integers are read from exactly their forms. -/
theorem recognizes_compressed :
    (liftM Read.compressed : Decode τ (Width × Nat)).Recognizes fun read bytes =>
      read.2 < read.1.capacity ∧ bytes = read.1.form read.2 := by
  intro cursor ⟨width, number⟩ after
  simp only [Read.compressed, liftM_bind, yields_offset_iff]
  have hextraBytes (width : Width) :=
    (recognizes_byte (τ := τ)).times width.extraBytes
  constructor
  · intro hyields
    obtain ⟨first, middle, hfirst, hyields⟩ := yields_bind_iff.mp hyields
    cases hlead : Width.ofLead? first with
    | none => simp [hlead] at hyields
    | some announced =>
        simp only [hlead, liftM_bind, liftM_times, liftM_pure] at hyields
        obtain ⟨extra, rest, hextra, hyields⟩ := yields_bind_iff.mp hyields
        obtain ⟨hread, rfl⟩ := yields_pure_iff.mp hyields
        obtain ⟨rfl, rfl⟩ := Prod.mk.inj hread
        obtain ⟨bytes, ⟨hlength, hbytes⟩, hpasses⟩ := (hextraBytes _ _ _ _).mp hextra
        rw [sequence_bytes_iff] at hbytes
        subst hbytes
        obtain ⟨hnumber, hform⟩ := Width.form_payload hlead hlength
        refine ⟨first :: bytes, ⟨hnumber, hform.symm⟩, ?_⟩
        exact (yields_byte_iff.mp hfirst).trans hpasses
  · rintro ⟨bytes, ⟨hnumber, rfl⟩, hpasses⟩
    obtain ⟨first, extra, hform, hlead, hlength, hpayload⟩ :=
      Width.payload_form width hnumber
    rw [hform] at hpasses
    obtain ⟨middle, hfirst, hpasses⟩ := Cursor.passes_cons_iff.mp hpasses
    refine (yields_byte_iff.mpr hfirst).bind ?_
    simp only [hlead, liftM_bind, liftM_times, liftM_pure]
    have hextra := (hextraBytes width _ _ _).mpr
      ⟨extra, ⟨hlength, sequence_bytes_iff.mpr rfl⟩, hpasses⟩
    refine hextra.bind (yields_pure_iff.mpr ⟨?_, rfl⟩)
    rw [hpayload]

/-- Unsigned numbers are read from exactly their forms. -/
theorem recognizes_unsigned :
    (liftM Read.unsigned : Decode τ UInt32).Recognizes UnsignedForm := by
  intro cursor number after
  simp only [Read.unsigned, liftM_bind, liftM_pure]
  constructor
  · intro hyields
    obtain ⟨⟨width, payload⟩, middle, hread, hyields⟩ := yields_bind_iff.mp hyields
    obtain ⟨rfl, rfl⟩ := yields_pure_iff.mp hyields
    obtain ⟨bytes, ⟨hpayload, hform⟩, hpasses⟩ := (recognizes_compressed _ _ _).mp hread
    simp only at hpayload hform
    have hcapacity := width.capacity_le
    have hnumber : (UInt32.ofNat payload).toNat = payload := by
      rw [UInt32.toNat_ofNat']
      omega
    refine ⟨bytes, ⟨width, ?_, ?_⟩, hpasses⟩
    · rw [hnumber]
      exact hpayload
    · rw [hnumber]
      exact hform
  · rintro ⟨bytes, ⟨width, hnumber, hform⟩, hpasses⟩
    have hread := (recognizes_compressed (τ := τ) cursor (width, number.toNat) after).mpr
      ⟨bytes, ⟨hnumber, hform⟩, hpasses⟩
    refine hread.bind (yields_pure_iff.mpr ⟨?_, rfl⟩)
    exact UInt32.ofNat_toNat.symm

/-- Compressed payloads are within the capacity of their width. -/
theorem lt_capacity_of_compressed {cursor after : Cursor} {width : Width} {payload : Nat}
    (hread : Read.compressed.run cursor = (.ok (width, payload), after)) :
    payload < width.capacity := by
  obtain ⟨_, ⟨hpayload, -⟩, -⟩ :=
    (recognizes_compressed (τ := Unit) _ _ _).mp (yields_lift_iff.mpr hread)
  exact hpayload

/-- No number that is read has to be refused. -/
theorem signed_eq :
    Read.signed = (do
      let (width, payload) ← Read.compressed
      return Int32.ofInt (width.signedPayload payload)) := by
  apply Read.ext
  intro cursor
  change (Read.compressed >>= _).run cursor = _
  rw [Read.run_bind, Read.run_bind]
  rcases hread : Read.compressed.run cursor with ⟨error | ⟨width, payload⟩, after⟩
  · rfl
  · simp only [narrow?_signedPayload (lt_capacity_of_compressed hread)]

/-- Signed numbers are read from exactly their forms. -/
theorem recognizes_signed :
    (liftM Read.signed : Decode τ Int32).Recognizes SignedForm := by
  intro cursor number after
  simp only [signed_eq, liftM_bind, liftM_pure]
  constructor
  · intro hyields
    obtain ⟨⟨width, payload⟩, middle, hread, hyields⟩ := yields_bind_iff.mp hyields
    obtain ⟨rfl, rfl⟩ := yields_pure_iff.mp hyields
    obtain ⟨bytes, ⟨hpayload, hform⟩, hpasses⟩ := (recognizes_compressed _ _ _).mp hread
    simp only at hpayload hform ⊢
    obtain ⟨hrange, hrotated⟩ := (Width.signedPayload_eq_iff hpayload).mp rfl
    have hweight := width.signWeight_le
    have hnumber : (Int32.ofInt (width.signedPayload payload)).toInt =
        width.signedPayload payload :=
      Int32.toInt_ofInt_of_le (by omega) (by omega)
    refine ⟨bytes, ⟨width, ?_, ?_⟩, hpasses⟩
    · rw [hnumber]
      exact hrange
    · rw [hnumber, ← hrotated]
      exact hform
  · rintro ⟨bytes, ⟨width, hrange, hform⟩, hpasses⟩
    have hrotated := width.rotated_lt hrange.1 hrange.2
    have hread := (recognizes_compressed (τ := τ) cursor
      (width, width.rotated number.toInt) after).mpr ⟨bytes, ⟨hrotated, hform⟩, hpasses⟩
    have hpayload := (Width.signedPayload_eq_iff hrotated).mpr ⟨hrange, rfl⟩
    refine hread.bind (yields_pure_iff.mpr ⟨?_, rfl⟩)
    rw [hpayload]
    exact (Int32.ofInt_toInt number).symm

end Decode

end TypeProjection.Signature

import TypeProjection.Text.Numeral

/-!
# Reading hexadecimal numbers

Hexadecimal digits are read as the number for which they were written, in capitals or not and
with any number of zeros in front.  So neither spelling of numbers gives two of them the same
text.
-/

namespace TypeProjection.Text

/-! ## Digits -/

theorem hexDigit?_digitChar :
    ∀ digit < 16, hexDigit? (Nat.digitChar digit) = some digit := by
  decide

theorem hexDigit?_toUpper :
    ∀ digit < 16, hexDigit? (Nat.digitChar digit).toUpper = some digit := by
  decide

/-- Digits lie between the first one of the ten and the last one of the six. -/
theorem range_of_hexDigit? {letter : Char} (hdigit : (hexDigit? letter).isSome) :
    '0' ≤ letter ∧ letter ≤ 'f' := by
  rw [hexDigit?] at hdigit
  split at hdigit
  next hrange => exact ⟨hrange.1, Char.le_trans hrange.2 (by decide)⟩
  next =>
    split at hdigit
    next hrange => exact ⟨Char.le_trans (by decide) hrange.1, hrange.2⟩
    next =>
      split at hdigit
      next hrange =>
        exact ⟨Char.le_trans (by decide) hrange.1, Char.le_trans hrange.2 (by decide)⟩
      next => cases hdigit

/-! ## Numbers -/

/-- Digits are read one after another. -/
theorem readHexDigits?_append (value : Nat) (digits later : List Char) :
    readHexDigits? value (digits ++ later) =
      (readHexDigits? value digits).bind (readHexDigits? · later) := by
  induction digits generalizing value with
  | nil => rfl
  | cons digit digits ih =>
      rw [List.cons_append, readHexDigits?, readHexDigits?]
      cases hexDigit? digit with
      | none => rfl
      | some number => exact ih (value * 16 + number)

/-- The digits of a number are read back, however they are spelled. -/
theorem readHexDigits?_toDigits {spell : Char → Char}
    (hspell : ∀ digit < 16, hexDigit? (spell (Nat.digitChar digit)) = some digit)
    (number : Nat) : readHexDigits? 0 ((Nat.toDigits 16 number).map spell) = some number := by
  induction number using Nat.strongRecOn with
  | ind number ih =>
      by_cases hnumber : number < 16
      · simp [Nat.toDigits_of_lt_base hnumber, readHexDigits?, hspell number hnumber]
      · have hquotient : number / 16 < number := by omega
        have hdigit : number % 16 < 16 := Nat.mod_lt number (by decide)
        rw [Nat.toDigits_of_base_le (by decide) (Nat.not_lt.mp hnumber), List.map_append,
          readHexDigits?_append, ih _ hquotient]
        simp [readHexDigits?, hspell _ hdigit, Nat.div_add_mod']

/-- Zeros in front do not count. -/
theorem readHexDigits?_zeros (count : Nat) (digits : List Char) :
    readHexDigits? 0 (List.replicate count '0' ++ digits) = readHexDigits? 0 digits := by
  induction count with
  | zero => rfl
  | succ count ih => exact ih

/-- What is read consists of digits. -/
theorem isSome_hexDigit?_of_read {value number : Nat} {digits : List Char}
    (hread : readHexDigits? value digits = some number) :
    ∀ digit ∈ digits, (hexDigit? digit).isSome := by
  induction digits generalizing value with
  | nil => exact List.forall_mem_nil _
  | cons digit digits ih =>
      rw [readHexDigits?] at hread
      cases hdigit : hexDigit? digit with
      | none =>
          rw [hdigit] at hread
          cases hread
      | some first =>
          rw [hdigit] at hread
          exact List.forall_mem_cons.mpr ⟨hdigit ▸ rfl, ih hread⟩

/-! ## Texts -/

theorem readHexDigits?_lowerHex (number : Nat) :
    readHexDigits? 0 (lowerHex number).toList = some number := by
  have hdigits := @readHexDigits?_toDigits id hexDigit?_digitChar number
  rw [List.map_id] at hdigits
  rwa [lowerHex, String.toList_ofList]

theorem readHexDigits?_upperHex (width number : Nat) :
    readHexDigits? 0 (upperHex width number).toList = some number := by
  rw [upperHex, String.toList_ofList, List.leftpad, readHexDigits?_zeros]
  exact readHexDigits?_toDigits hexDigit?_toUpper number

/-- A text has exactly so many digits, none of them a small letter, and is read as the
number. -/
structure Capitals (width number : Nat) (text : String) : Prop where
  length : text.length = width
  digits : ∀ digit ∈ text.toList, digit ∈ "0123456789ABCDEF".toList
  value : readHexDigits? 0 text.toList = some number

theorem toUpper_digitChar_mem :
    ∀ digit < 16, (Nat.digitChar digit).toUpper ∈ "0123456789ABCDEF".toList := by
  decide

theorem mem_capitals_of_toDigits (number : Nat) :
    ∀ letter ∈ Nat.toDigits 16 number, letter.toUpper ∈ "0123456789ABCDEF".toList := by
  induction number using Nat.strongRecOn with
  | ind number ih =>
      by_cases hnumber : number < 16
      · rw [Nat.toDigits_of_lt_base hnumber]
        exact List.forall_mem_singleton.mpr (toUpper_digitChar_mem number hnumber)
      · have hquotient : number / 16 < number := by omega
        have hdigit : number % 16 < 16 := Nat.mod_lt number (by decide)
        rw [Nat.toDigits_of_base_le (by decide) (Nat.not_lt.mp hnumber)]
        exact List.forall_mem_append.mpr ⟨ih _ hquotient,
          List.forall_mem_singleton.mpr (toUpper_digitChar_mem _ hdigit)⟩

/-- A number whose digits fit is written with exactly as many as there is room for. -/
theorem upperHex_capitals {width number : Nat}
    (hwidth : (Nat.toDigits 16 number).length ≤ width) :
    Capitals width number (upperHex width number) where
  length := by
    rw [upperHex, String.length_ofList, List.length_leftpad, List.length_map]
    exact Nat.max_eq_left hwidth
  digits := by
    rw [upperHex, String.toList_ofList, List.leftpad]
    intro digit hdigit
    rcases List.mem_append.mp hdigit with hzero | hdigit
    · rw [(List.mem_replicate.mp hzero).2]
      decide
    · obtain ⟨letter, hletter, rfl⟩ := List.mem_map.mp hdigit
      exact mem_capitals_of_toDigits number letter hletter
  value := readHexDigits?_upperHex width number

/-- Different numbers have different texts in capitals. -/
theorem upperHex_inj {width number other : Nat}
    (htext : upperHex width number = upperHex width other) : number = other := by
  have hread := readHexDigits?_upperHex width number
  rw [htext, readHexDigits?_upperHex] at hread
  exact (Option.some.inj hread).symm

/-- The text of a number has digits only. -/
theorem isSome_hexDigit?_lowerHex (number : Nat) :
    ∀ digit ∈ (lowerHex number).toList, (hexDigit? digit).isSome :=
  isSome_hexDigit?_of_read (readHexDigits?_lowerHex number)

/-- Digits without a plus in front are read as they are. -/
theorem readHex?_eq {digits : List Char} (hempty : digits ≠ [])
    (hdigits : ∀ digit ∈ digits, (hexDigit? digit).isSome) :
    readHex? digits = readHexDigits? 0 digits := by
  have hplus : ∀ rest, digits ≠ '+' :: rest := by
    rintro rest rfl
    exact absurd (hdigits '+' List.mem_cons_self) (by decide)
  rw [readHex?.eq_def]
  split
  · exact absurd rfl (hplus _)
  · rw [if_neg (by simpa using hempty)]

/-- A number is read back from its text. -/
theorem readHex?_lowerHex (number : Nat) : readHex? (lowerHex number).toList = some number := by
  have hempty : (lowerHex number).toList ≠ [] := by
    rw [lowerHex, String.toList_ofList]
    exact Nat.toDigits_ne_nil
  rw [readHex?_eq hempty (isSome_hexDigit?_lowerHex number), readHexDigits?_lowerHex]

end TypeProjection.Text

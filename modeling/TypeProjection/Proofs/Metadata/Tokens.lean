import TypeProjection.Persist.Forms
import TypeProjection.Proofs.Signature.Exactness
import TypeProjection.Proofs.Text.Hexadecimal

/-!
# Tokens and coded indices

A handle whose row fits into 24 bits is known by its token, by the text of its token and, in
the three tables of types, by its coded index.  A word that is no such token or index is
refused: no row is cut to size so that it would name another entity.
-/

namespace TypeProjection.Metadata

open TypeProjection.Persist TypeProjection.Signature

namespace Kind

def codedTag? : Kind → Option Nat
  | typeDefinition => some 0
  | typeReference => some 1
  | typeSpecification => some 2
  | _ => none

theorem ofTableId?_eq_some_iff {id : UInt8} {kind : Kind} :
    ofTableId? id = some kind ↔ id = kind.tableId := by
  constructor
  · intro hfound
    have hid := List.find?_some hfound
    exact (of_decide_eq_true hid).symm
  · rintro rfl
    exact ofTableId?_tableId kind

theorem tableId_lt (kind : Kind) : kind.tableId.toNat < 0x100 :=
  kind.tableId.toNat_lt

theorem codedTag?_lt {kind : Kind} {tag : Nat} (htag : kind.codedTag? = some tag) : tag < 4 := by
  cases kind <;> cases htag <;> decide

end Kind

namespace Handle

variable {handle : Handle}

/-! ## Tokens -/

theorem toNat_and_maxRow (row : UInt32) : (row &&& maxRow).toNat = row.toNat % 0x1000000 := by
  rw [UInt32.toNat_and]
  exact Nat.and_two_pow_sub_one_eq_mod row.toNat 24

theorem le_maxRow_iff {row : UInt32} : row ≤ maxRow ↔ row.toNat < 0x1000000 := by
  rw [UInt32.le_iff_toNat_le]
  exact Nat.lt_succ_iff.symm

/-- The high byte of a word. -/
theorem toNat_highByte (word : UInt32) : (word >>> 24).toUInt8.toNat = word.toNat / 0x1000000 := by
  have hword := word.toNat_lt
  have hshift : (word >>> 24).toNat = word.toNat / 0x1000000 :=
    (UInt32.toNat_shiftRight word 24).trans (Nat.shiftRight_eq_div_pow word.toNat 24)
  rw [UInt32.toNat_toUInt8, hshift]
  omega

/-- The token of a row that fits into 24 bits has it behind the table id. -/
theorem toNat_token (hrow : handle.row ≤ maxRow) :
    handle.token.toNat = handle.kind.tableId.toNat * 0x1000000 + handle.row.toNat := by
  have hid := handle.kind.tableId_lt
  have hshift : (handle.kind.tableId.toUInt32 <<< 24).toNat =
      handle.kind.tableId.toNat <<< 24 := by
    have hsmall : handle.kind.tableId.toNat <<< 24 < 0x100000000 := by
      rw [Nat.shiftLeft_eq]
      omega
    rw [UInt32.toNat_shiftLeft, UInt8.toNat_toUInt32]
    exact Nat.mod_eq_of_lt hsmall
  rw [le_maxRow_iff] at hrow
  rw [token, UInt32.toNat_or, hshift, ← Nat.shiftLeft_add_eq_or_of_lt hrow, Nat.shiftLeft_eq]

/-- What is read from a word: a table by its high byte, and a row by the rest. -/
theorem ofToken?_eq_some_iff {word : UInt32} :
    ofToken? word = some handle ↔
      handle.kind.tableId.toNat = word.toNat / 0x1000000 ∧
        handle.row.toNat = word.toNat % 0x1000000 := by
  obtain ⟨kind, row⟩ := handle
  rw [ofToken?, Option.map_eq_some_iff, ← toNat_highByte, ← toNat_and_maxRow]
  simp only [Kind.ofTableId?_eq_some_iff, ofRow, mk.injEq, UInt8.toNat_inj, UInt32.toNat_inj]
  constructor
  · rintro ⟨_, hid, rfl, rfl⟩
    exact ⟨hid.symm, rfl⟩
  · rintro ⟨hid, hrow⟩
    exact ⟨kind, hid.symm, rfl, hrow.symm⟩

theorem le_maxRow_of_ofToken? {word : UInt32} (hhandle : ofToken? word = some handle) :
    handle.row ≤ maxRow := by
  rw [le_maxRow_iff, (ofToken?_eq_some_iff.mp hhandle).2]
  exact Nat.mod_lt _ (by decide)

/-- A word that is read as a handle is its token. -/
theorem token_of_ofToken? {word : UInt32} (hhandle : ofToken? word = some handle) :
    handle.token = word := by
  obtain ⟨hid, hrow⟩ := ofToken?_eq_some_iff.mp hhandle
  rw [← UInt32.toNat_inj, toNat_token (le_maxRow_of_ofToken? hhandle), hid, hrow]
  exact Nat.div_add_mod' word.toNat 0x1000000

/-- A handle is read back from its token if its row fits into 24 bits. -/
theorem ofToken?_token_iff : ofToken? handle.token = some handle ↔ handle.row ≤ maxRow := by
  constructor
  · exact le_maxRow_of_ofToken?
  · intro hrow
    rw [ofToken?_eq_some_iff, toNat_token hrow]
    rw [le_maxRow_iff] at hrow
    omega

/-- The text of a handle has the eight digits of its token. -/
theorem text_capitals (handle : Handle) :
    ∃ digits, handle.text = "0x" ++ digits ∧
      Text.Capitals 8 handle.token.toNat digits := by
  refine ⟨_, rfl, Text.upperHex_capitals ?_⟩
  rw [Nat.length_toDigits_le_iff (by decide) (by decide)]
  exact handle.token.toNat_lt

/-- Handles whose rows fit into 24 bits are told apart by the texts of their tokens. -/
theorem text_inj {left right : Handle} (hleft : left.row ≤ maxRow) (hright : right.row ≤ maxRow)
    (htext : left.text = right.text) : left = right := by
  have hdigits : Text.upperHex 8 left.token.toNat = Text.upperHex 8 right.token.toNat := by
    rw [text, text, String.append_right_inj] at htext
    exact htext
  have htoken : left.token = right.token := UInt32.toNat_inj.mp (Text.upperHex_inj hdigits)
  have hread := ofToken?_token_iff.mpr hleft
  rw [htoken, ofToken?_token_iff.mpr hright] at hread
  exact (Option.some.inj hread).symm

/-! ## Coded indices -/

/-- A tag selects the table that has it. -/
theorem codedKind?_eq_some_iff {tag : UInt32} {kind : Kind} :
    codedKind? tag = some kind ↔ kind.codedTag? = some tag.toNat := by
  by_cases hdefinition : tag = 0
  · rw [hdefinition]
    cases kind <;> decide
  by_cases hreference : tag = 1
  · rw [hreference]
    cases kind <;> decide
  by_cases hspecification : tag = 2
  · rw [hspecification]
    cases kind <;> decide
  rw [codedKind?, if_neg hdefinition, if_neg hreference, if_neg hspecification]
  rw [← UInt32.toNat_inj] at hdefinition hreference hspecification
  cases kind with
  | typeDefinition => simpa [Kind.codedTag?] using Ne.symm hdefinition
  | typeReference => simpa [Kind.codedTag?] using Ne.symm hreference
  | typeSpecification => simpa [Kind.codedTag?] using Ne.symm hspecification
  | _ => simp [Kind.codedTag?]

/-- A coded index is read as the handle for which it was written, and nothing else is read. -/
theorem ofCoded?_eq_some_iff {coded : UInt32} :
    ofCoded? coded = some handle ↔
      handle.row ≤ maxRow ∧ ∃ tag, handle.kind.codedTag? = some tag ∧
        coded.toNat = codedIndex handle.row tag := by
  obtain ⟨kind, row⟩ := handle
  constructor
  · intro hhandle
    rw [ofCoded?] at hhandle
    by_cases hlarge : maxRow < coded >>> 2
    · rw [if_pos hlarge] at hhandle
      cases hhandle
    rw [if_neg hlarge, Option.map_eq_some_iff] at hhandle
    obtain ⟨_, hkind, rfl, rfl⟩ := hhandle
    have htag := codedKind?_eq_some_iff.mp hkind
    refine ⟨UInt32.not_lt.mp hlarge, _, htag, ?_⟩
    exact (eq_codedIndex_iff (Kind.codedTag?_lt htag)).mpr ⟨rfl, rfl⟩
  · rintro ⟨hrow, tag, htag, hcoded⟩
    obtain ⟨rfl, rfl⟩ := (eq_codedIndex_iff (Kind.codedTag?_lt htag)).mp hcoded
    rw [ofCoded?, if_neg (UInt32.not_lt.mpr hrow), codedKind?_eq_some_iff.mpr htag]
    rfl

/-! ## Stored handles -/

theorem load?_store_row (row : UInt32) :
    (Persistent.load? (Persistent.store row) : Option UInt32) = some row := by
  have hrow := row.toNat_lt
  have hrange : 0 ≤ (row.toNat : Int) ∧ (row.toNat : Int) ≤ 0xFFFFFFFF := by omega
  change (if 0 ≤ (row.toNat : Int) ∧ (row.toNat : Int) ≤ 0xFFFFFFFF then
    some (row.toNat : Int) else none).map (fun number => UInt32.ofNat number.toNat) = some row
  rw [if_pos hrange]
  simp

/-- A handle is stored with its row as it is. -/
theorem load?_store (handle : Handle) :
    (Persistent.load? (Persistent.store handle) : Option Handle) = some handle := by
  obtain ⟨kind, row⟩ := handle
  have hkind : (Persistent.load? (Persistent.store kind) : Option Kind) = some kind :=
    Kind.ofName?_name kind
  change ((Persistent.load? (Persistent.store kind)).bind fun kind =>
    (Persistent.load? (Persistent.store row)).bind fun row => some (Handle.mk kind row)) = _
  rw [hkind, load?_store_row, Option.bind_some, Option.bind_some]

/-! ## Correspondence -/

/-- How handles and the words that stand for them correspond. -/
structure Corresponds : Prop where
  /-- A word is read as a handle if its high byte is the id of a table. -/
  known : ∀ word, (∃ handle, ofToken? word = some handle) ↔
    ∃ kind : Kind, kind.tableId.toNat = word.toNat / 0x1000000
  /-- Then it is the token of that handle. -/
  token : ∀ word handle, ofToken? word = some handle → handle.token = word
  /-- Any row can be stored, also one beyond 24 bits. -/
  stored : ∀ handle : Handle, Persistent.load? (Persistent.store handle) = some handle
  /-- A handle is read back from its token if its row fits into 24 bits. -/
  readBack : ∀ handle, ofToken? handle.token = some handle ↔ handle.row ≤ maxRow
  /-- Such handles are told apart by their texts. -/
  text : ∀ left right : Handle, left.row ≤ maxRow → right.row ≤ maxRow →
    left.text = right.text → left = right
  /-- A coded index is read as the handle for which it was written. -/
  coded : ∀ coded handle, ofCoded? coded = some handle ↔
    handle.row ≤ maxRow ∧ ∃ tag, handle.kind.codedTag? = some tag ∧
      coded.toNat = codedIndex handle.row tag
  /-- Different coded indices never name the same handle. -/
  distinct : ∀ left right handle, ofCoded? left = some handle →
    ofCoded? right = some handle → left = right
  /-- A word that is not written for any handle is refused. -/
  refused : ∀ coded, ofCoded? coded = none ↔
    ∀ (handle : Handle) tag, handle.row ≤ maxRow → handle.kind.codedTag? = some tag →
      coded.toNat ≠ codedIndex handle.row tag

/-- Handles, tokens and coded indices correspond. -/
theorem words_correspond : Corresponds where
  known word := by
    constructor
    · rintro ⟨handle, hhandle⟩
      exact ⟨handle.kind, (ofToken?_eq_some_iff.mp hhandle).1⟩
    · rintro ⟨kind, hid⟩
      refine ⟨⟨kind, word &&& maxRow⟩, ?_⟩
      exact ofToken?_eq_some_iff.mpr ⟨hid, toNat_and_maxRow word⟩
  token word handle := token_of_ofToken?
  stored := load?_store
  readBack handle := ofToken?_token_iff
  text left right := text_inj
  coded coded handle := ofCoded?_eq_some_iff
  distinct left right handle hleft hright := by
    obtain ⟨-, tag, htag, hleftCoded⟩ := ofCoded?_eq_some_iff.mp hleft
    obtain ⟨-, other, hother, hrightCoded⟩ := ofCoded?_eq_some_iff.mp hright
    obtain rfl := Option.some.inj (htag.symm.trans hother)
    exact UInt32.toNat_inj.mp (hleftCoded.trans hrightCoded.symm)
  refused coded := by
    constructor
    · intro hnone handle tag hrow htag hcoded
      have hhandle := ofCoded?_eq_some_iff.mpr ⟨hrow, tag, htag, hcoded⟩
      rw [hnone] at hhandle
      cases hhandle
    · intro hrefused
      rw [Option.eq_none_iff_forall_ne_some]
      intro handle hhandle
      obtain ⟨hrow, tag, htag, hcoded⟩ := ofCoded?_eq_some_iff.mp hhandle
      exact hrefused handle tag hrow htag hcoded

end Handle

end TypeProjection.Metadata

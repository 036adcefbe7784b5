import TypeProjection.Metadata.Kind
import TypeProjection.Text.Numeral

/-!
# Metadata handles

A handle is a table together with a row number.  Rows count from one; row
zero is the nil handle.  A handle prints as its token: the table id in the
high byte and the row in the low 24 bits.

`Handle` knows its table at run time.  `TypedHandle` knows it statically and
carries the row alone.
-/

namespace TypeProjection.Metadata

def maxRow : UInt32 := 0x00FFFFFF

/-- A row of some metadata table. -/
structure Handle where
  kind : Kind
  row : UInt32
  deriving DecidableEq, Repr

/-- A row of the metadata table `kind`. -/
structure TypedHandle (kind : Kind) where
  row : UInt32
  deriving DecidableEq, Repr

abbrev DefinitionHandle := TypedHandle .typeDefinition

abbrev ReferenceHandle := TypedHandle .typeReference

abbrev SpecificationHandle := TypedHandle .typeSpecification

namespace Handle

/-- The handle of a row, of which only the low 24 bits count. -/
def ofRow (kind : Kind) (row : UInt32) : Handle :=
  ⟨kind, row &&& maxRow⟩

/-- A row that fits into a token is kept as it is. -/
theorem ofRow_eq (kind : Kind) {row : UInt32} (hrow : row ≤ maxRow) :
    ofRow kind row = ⟨kind, row⟩ := by
  have hlow : row.toNat % 0x1000000 = row.toNat :=
    Nat.mod_eq_of_lt (Nat.lt_succ_of_le (UInt32.le_iff_toNat_le.mp hrow))
  have hmask : row &&& maxRow = row := by
    rw [← UInt32.toNat_inj, UInt32.toNat_and]
    exact (Nat.and_two_pow_sub_one_eq_mod row.toNat 24).trans hlow
  rw [ofRow, hmask]

def isNil (handle : Handle) : Bool :=
  handle.row == 0

/-- The table id in the high byte, joined with the row. -/
def token (handle : Handle) : UInt32 :=
  handle.kind.tableId.toUInt32 <<< 24 ||| handle.row

/-- Reads a token; its high byte must be a known table id. -/
def ofToken? (token : UInt32) : Option Handle :=
  (Kind.ofTableId? (token >>> 24).toUInt8).map fun kind => ofRow kind token

/-- The kind that the low two bits of a coded index select. -/
def codedKind? (tag : UInt32) : Option Kind :=
  if tag = 0 then some .typeDefinition
  else if tag = 1 then some .typeReference
  else if tag = 2 then some .typeSpecification
  else none

/-- Reads a coded index: two bits select the table and the others are the row.
A row beyond 24 bits is refused. -/
def ofCoded? (coded : UInt32) : Option Handle :=
  if maxRow < coded >>> 2 then none
  else (codedKind? (coded &&& 3)).map fun kind => ⟨kind, coded >>> 2⟩

/-- The token, as `0x` and eight upper-case digits. -/
def text (handle : Handle) : String :=
  "0x" ++ Text.upperHex 8 handle.token.toNat

/-- The token with the name of its table around it. -/
def describe (handle : Handle) : String :=
  handle.kind.name ++ "(" ++ handle.text ++ ")"

/-- The row as a handle of `kind`, if that is the table pointed into. -/
def as? (kind : Kind) (handle : Handle) : Option (TypedHandle kind) :=
  if handle.kind = kind then some ⟨handle.row⟩ else none

end Handle

namespace TypedHandle

variable {kind : Kind}

def nil : TypedHandle kind :=
  ⟨0⟩

/-- The handle of a row, of which only the low 24 bits count. -/
def ofRow (row : UInt32) : TypedHandle kind :=
  ⟨row &&& maxRow⟩

def isNil (handle : TypedHandle kind) : Bool :=
  handle.row == 0

/-- The position of the row, counted from zero; the nil handle has none. -/
def index? (handle : TypedHandle kind) : Option Nat :=
  if handle.row = 0 then none else some (handle.row.toNat - 1)

def toHandle (handle : TypedHandle kind) : Handle :=
  Handle.ofRow kind handle.row

instance : Ord (TypedHandle kind) where
  compare left right := compare left.row right.row

def sort (handles : List (TypedHandle kind)) : List (TypedHandle kind) :=
  handles.mergeSort fun left right => (compare left right).isLE

end TypedHandle

end TypeProjection.Metadata

import Mathlib.Algebra.Group.Nat.Defs
import TypeProjection.Proofs.Projection.Qualification

/-!
# Registries grow by appending

An addition appends one row to the table of its kind and returns the handle of that
row.  The rows that were there before stay where they are, so a handle that was
returned names the row of its addition for good.  This holds for as long as the row
numbers fit into tokens.
-/

namespace TypeProjection.Metadata.Registry

/-! ## Rows to append -/

namespace Addition

def kind : Addition → Kind
  | definition _ _ _ => .typeDefinition
  | nested _ _ _ => .typeDefinition
  | reference _ _ _ => .typeReference
  | external _ _ => .typeReference

theorem kind_cases (addition : Addition) :
    addition.kind = .typeDefinition ∨ addition.kind = .typeReference := by
  cases addition with
  | definition namespaceName name attributes => exact .inl rfl
  | nested declaring name attributes => exact .inl rfl
  | reference scope namespaceName name => exact .inr rfl
  | external namespaceName name => exact .inr rfl

def definitionRow? : Addition → Option Definition
  | definition namespaceName name attributes => some ⟨name, namespaceName, attributes, none⟩
  | nested declaring name attributes =>
      some ⟨name, "", attributes.union .nestedPublic, some declaring⟩
  | reference _ _ _ => none
  | external _ _ => none

def referenceRow? : Addition → Option Reference
  | definition _ _ _ => none
  | nested _ _ _ => none
  | reference scope namespaceName name => some ⟨name, namespaceName, scope⟩
  | external namespaceName name => some ⟨name, namespaceName, externalScope⟩

end Addition

/-- The rows of each kind are so few that their numbers fit into tokens. -/
structure Fits (registry : Registry) : Prop where
  definitions : registry.definitions.size < 2 ^ 24
  references : registry.references.size < 2 ^ 24

def addAll (registry : Registry) (additions : List Addition) : Registry :=
  additions.foldl (fun registry addition => (registry.add addition).2) registry

/-- Additions made one after another, each with the handle that it returns. -/
def history (registry : Registry) : List Addition → List (Addition × Handle)
  | [] => []
  | addition :: additions =>
      (addition, (registry.add addition).1) :: (registry.add addition).2.history additions

/-- The number of the handle is that of a row of its kind. -/
def HasRow (registry : Registry) (handle : Handle) : Prop :=
  1 ≤ handle.row.toNat ∧ handle.row.toNat ≤ registry.rowCount handle.kind

variable {registry : Registry} {addition : Addition} {additions : List Addition}

theorem Fits.rowCount_lt (hfits : registry.Fits) (kind : Kind) :
    registry.rowCount kind < 2 ^ 24 := by
  cases kind with
  | typeDefinition => exact hfits.definitions
  | typeReference => exact hfits.references
  | _ => exact Nat.two_pow_pos 24

/-! ## One addition -/

theorem definitions_add (registry : Registry) (addition : Addition) :
    (registry.add addition).2.definitions =
      registry.definitions ++ addition.definitionRow?.toArray := by
  cases addition <;> simp [add, addDefinition, addNested, addReference, addExternal, append,
    Addition.definitionRow?]

theorem references_add (registry : Registry) (addition : Addition) :
    (registry.add addition).2.references =
      registry.references ++ addition.referenceRow?.toArray := by
  cases addition <;> simp [add, addDefinition, addNested, addReference, addExternal, append,
    Addition.referenceRow?]

theorem rowCount_add (registry : Registry) (addition : Addition) (kind : Kind) :
    (registry.add addition).2.rowCount kind =
      registry.rowCount kind + if addition.kind = kind then 1 else 0 := by
  cases kind with
  | typeDefinition =>
      rw [rowCount, rowCount, definitions_add, Array.size_append]
      cases addition <;> rfl
  | typeReference =>
      rw [rowCount, rowCount, references_add, Array.size_append]
      cases addition <;> rfl
  | _ => cases addition <;> rfl

theorem toNat_ofNat_row {count : Nat} (hcount : count < 2 ^ 24) :
    (UInt32.ofNat count).toNat = count := by
  rw [UInt32.toNat_ofNat']
  exact Nat.mod_eq_of_lt (Nat.lt_trans hcount (by decide))

/-- The last handle of rows that fit into tokens is their count. -/
theorem lastHandle_toHandle {kind : Kind} {count : Nat} (hcount : count < 2 ^ 24) :
    (lastHandle count : TypedHandle kind).toHandle = ⟨kind, UInt32.ofNat count⟩ := by
  have hrow : UInt32.ofNat count ≤ maxRow := by
    rw [UInt32.le_iff_toNat_le, toNat_ofNat_row hcount]
    exact Nat.le_of_lt_succ hcount
  have hmasked : UInt32.ofNat count &&& maxRow = UInt32.ofNat count :=
    congrArg Handle.row (Handle.ofRow_eq kind hrow)
  have hword : UInt32.ofNatClamp count = UInt32.ofNat count :=
    UInt32.ofNatClamp_eq_ofNat count (Nat.lt_trans hcount (by decide))
  rw [lastHandle, hword, TypedHandle.ofRow, hmasked]
  exact Handle.ofRow_eq kind hrow

/-- An addition returns the handle of the row after those of its kind. -/
theorem add_handle (hfits : (registry.add addition).2.Fits) :
    (registry.add addition).1 =
      ⟨addition.kind, UInt32.ofNat (registry.rowCount addition.kind + 1)⟩ := by
  have hcount := hfits.rowCount_lt addition.kind
  have hlast : (registry.add addition).1 = (lastHandle
      ((registry.add addition).2.rowCount addition.kind) : TypedHandle addition.kind).toHandle := by
    cases addition <;> rfl
  rw [rowCount_add, if_pos rfl] at hcount hlast
  rw [hlast, lastHandle_toHandle hcount]

theorem index?_ofNat_row {kind : Kind} {count : Nat} (hcount : count + 1 < 2 ^ 24) :
    (⟨UInt32.ofNat (count + 1)⟩ : TypedHandle kind).index? = some count := by
  have hnumber := toNat_ofNat_row hcount
  have hnil : UInt32.ofNat (count + 1) ≠ 0 := by
    intro hzero
    rw [hzero] at hnumber
    exact absurd hnumber.symm (Nat.succ_ne_zero count)
  rw [TypedHandle.index?, if_neg hnil, hnumber]
  rfl

/-- The row behind all others is looked up by its number. -/
theorem lookup_appended {kind : Kind} {Row : Type} {rows : Array Row} {row : Row}
    (hcount : rows.size + 1 < 2 ^ 24) :
    ((⟨UInt32.ofNat (rows.size + 1)⟩ : TypedHandle kind).index?.bind fun position =>
      (rows ++ #[row])[position]?) = some row := by
  rw [index?_ofNat_row hcount, Option.bind_some]
  rw [Array.getElem?_append_right (Nat.le_refl rows.size), Nat.sub_self]
  rfl

/-- Rows are counted from one, so a look-up finds nothing exactly by a number that no row
has. -/
theorem lookup_eq_none_iff {kind : Kind} {Row : Type} {rows : Array Row}
    {handle : TypedHandle kind} :
    (handle.index?.bind fun position => rows[position]?) = none ↔
      ¬ (1 ≤ handle.row.toNat ∧ handle.row.toNat ≤ rows.size) := by
  rw [TypedHandle.index?]
  by_cases hnil : handle.row = 0
  · simp [hnil]
  · have hpositive : handle.row.toNat ≠ 0 := fun hzero => hnil (UInt32.toNat_inj.mp hzero)
    rw [if_neg hnil, Option.bind_some, Array.getElem?_eq_none_iff]
    omega

/-- The new handle names the new definition. -/
theorem definition?_add {row : Definition} (hfits : (registry.add addition).2.Fits)
    (hrow : addition.definitionRow? = some row) :
    (registry.add addition).2.definition? ⟨(registry.add addition).1.row⟩ = some row := by
  have hkind : addition.kind = .typeDefinition := by
    cases addition <;> first | rfl | cases hrow
  have hcount := hfits.rowCount_lt .typeDefinition
  rw [rowCount_add, if_pos hkind] at hcount
  rw [add_handle hfits, hkind, definition?, definitions_add, hrow]
  exact lookup_appended hcount

/-- The new handle names the new reference. -/
theorem reference?_add {row : Reference} (hfits : (registry.add addition).2.Fits)
    (hrow : addition.referenceRow? = some row) :
    (registry.add addition).2.reference? ⟨(registry.add addition).1.row⟩ = some row := by
  have hkind : addition.kind = .typeReference := by
    cases addition <;> first | rfl | cases hrow
  have hcount := hfits.rowCount_lt .typeReference
  rw [rowCount_add, if_pos hkind] at hcount
  rw [add_handle hfits, hkind, reference?, references_add, hrow]
  exact lookup_appended hcount

/-! ## Rows that stay -/

/-- A row is looked up alike when more rows come behind. -/
theorem lookup_append {Row : Type} {rows added : Array Row} {position? : Option Nat}
    {row : Row} (hrow : (position?.bind fun position => rows[position]?) = some row) :
    (position?.bind fun position => (rows ++ added)[position]?) = some row := by
  obtain ⟨position, rfl, hrow⟩ := Option.bind_eq_some_iff.mp hrow
  have hbound := (Array.getElem?_eq_some_iff.mp hrow).1
  rw [Option.bind_some, Array.getElem?_append_left hbound]
  exact hrow

/-- The later registry has the rows of the other one in front of its own. -/
structure Extends (later registry : Registry) : Prop where
  definitions : ∃ added, later.definitions = registry.definitions ++ added
  references : ∃ added, later.references = registry.references ++ added

namespace Extends

variable {middle later : Registry}

theorem refl (registry : Registry) : registry.Extends registry where
  definitions := ⟨#[], Array.append_empty.symm⟩
  references := ⟨#[], Array.append_empty.symm⟩

theorem trans (hlater : later.Extends middle) (hmiddle : middle.Extends registry) :
    later.Extends registry := by
  obtain ⟨⟨definitions, hdefinitions⟩, ⟨references, hreferences⟩⟩ := hmiddle
  obtain ⟨⟨moreDefinitions, hmoreDefinitions⟩, ⟨moreReferences, hmoreReferences⟩⟩ := hlater
  constructor
  · exact ⟨definitions ++ moreDefinitions, by
      rw [hmoreDefinitions, hdefinitions, Array.append_assoc]⟩
  · exact ⟨references ++ moreReferences, by
      rw [hmoreReferences, hreferences, Array.append_assoc]⟩

theorem rowCount_le (hlater : later.Extends registry) (kind : Kind) :
    registry.rowCount kind ≤ later.rowCount kind := by
  obtain ⟨⟨definitions, hdefinitions⟩, ⟨references, hreferences⟩⟩ := hlater
  cases kind with
  | typeDefinition =>
      rw [rowCount, rowCount, hdefinitions, Array.size_append]
      exact Nat.le_add_right _ _
  | typeReference =>
      rw [rowCount, rowCount, hreferences, Array.size_append]
      exact Nat.le_add_right _ _
  | _ => exact Nat.le_refl 0

theorem fits (hlater : later.Extends registry) (hfits : later.Fits) : registry.Fits where
  definitions := Nat.lt_of_le_of_lt (hlater.rowCount_le .typeDefinition) hfits.definitions
  references := Nat.lt_of_le_of_lt (hlater.rowCount_le .typeReference) hfits.references

theorem definition? {handle : DefinitionHandle} {row : Definition}
    (hlater : later.Extends registry) (hrow : registry.definition? handle = some row) :
    later.definition? handle = some row := by
  obtain ⟨added, hadded⟩ := hlater.definitions
  rw [Registry.definition?, hadded]
  exact lookup_append hrow

theorem reference? {handle : ReferenceHandle} {row : Reference}
    (hlater : later.Extends registry) (hrow : registry.reference? handle = some row) :
    later.reference? handle = some row := by
  obtain ⟨added, hadded⟩ := hlater.references
  rw [Registry.reference?, hadded]
  exact lookup_append hrow

end Extends

theorem add_extends (registry : Registry) (addition : Addition) :
    (registry.add addition).2.Extends registry where
  definitions := ⟨_, definitions_add registry addition⟩
  references := ⟨_, references_add registry addition⟩

theorem addAll_extends (registry : Registry) (additions : List Addition) :
    (registry.addAll additions).Extends registry := by
  induction additions generalizing registry with
  | nil => exact .refl registry
  | cons addition additions ih =>
      exact (ih (registry.add addition).2).trans (registry.add_extends addition)

/-! ## Handles that were returned -/

variable {handle : Handle}

/-- A returned handle was returned by a registry on the way. -/
theorem exists_add_of_mem_history (hadded : (addition, handle) ∈ registry.history additions) :
    ∃ before : Registry, before.Extends registry ∧ handle = (before.add addition).1 ∧
      (registry.addAll additions).Extends (before.add addition).2 := by
  induction additions generalizing registry with
  | nil => cases hadded
  | cons first additions ih =>
      rcases List.mem_cons.mp hadded with hfirst | hrest
      · obtain ⟨rfl, rfl⟩ := Prod.mk.inj hfirst
        exact ⟨registry, .refl registry, rfl, (registry.add addition).2.addAll_extends additions⟩
      · obtain ⟨before, hbefore, hreturned, hlater⟩ := ih hrest
        exact ⟨before, hbefore.trans (registry.add_extends first), hreturned, hlater⟩

/-- A returned handle names the definition that was added with it. -/
theorem definition?_of_mem_history {row : Definition} (hfits : (registry.addAll additions).Fits)
    (hadded : (addition, handle) ∈ registry.history additions)
    (hrow : addition.definitionRow? = some row) :
    (registry.addAll additions).definition? ⟨handle.row⟩ = some row := by
  obtain ⟨before, -, rfl, hlater⟩ := exists_add_of_mem_history hadded
  exact hlater.definition? (definition?_add (hlater.fits hfits) hrow)

/-- A returned handle names the reference that was added with it. -/
theorem reference?_of_mem_history {row : Reference} (hfits : (registry.addAll additions).Fits)
    (hadded : (addition, handle) ∈ registry.history additions)
    (hrow : addition.referenceRow? = some row) :
    (registry.addAll additions).reference? ⟨handle.row⟩ = some row := by
  obtain ⟨before, -, rfl, hlater⟩ := exists_add_of_mem_history hadded
  exact hlater.reference? (reference?_add (hlater.fits hfits) hrow)

/-- Returned handles are of the kind of their addition and come behind all rows that
were there before. -/
theorem row_of_mem_history (hfits : (registry.addAll additions).Fits)
    (hadded : (addition, handle) ∈ registry.history additions) :
    handle.kind = addition.kind ∧ registry.rowCount addition.kind < handle.row.toNat := by
  obtain ⟨before, hbefore, rfl, hlater⟩ := exists_add_of_mem_history hadded
  have hcount := (hlater.fits hfits).rowCount_lt addition.kind
  rw [rowCount_add, if_pos rfl] at hcount
  rw [add_handle (hlater.fits hfits)]
  refine ⟨rfl, ?_⟩
  calc
    registry.rowCount addition.kind ≤ before.rowCount addition.kind :=
      hbefore.rowCount_le addition.kind
    _ < (UInt32.ofNat (before.rowCount addition.kind + 1)).toNat := by
      rw [toNat_ofNat_row hcount]
      exact Nat.lt_succ_self _

/-- Handles of one kind are returned in ascending order. -/
theorem history_ascending (hfits : (registry.addAll additions).Fits) :
    (registry.history additions).Pairwise fun earlier later =>
      earlier.2.kind = later.2.kind → earlier.2.row < later.2.row := by
  induction additions generalizing registry with
  | nil => exact .nil
  | cons first additions ih =>
      have hlater := (registry.add first).2.addAll_extends additions
      refine List.pairwise_cons.mpr ⟨?_, ih hfits⟩
      intro entry hrest hkinds
      have hlaterFits : ((registry.add first).2.addAll additions).Fits := hfits
      obtain ⟨hkind, hrow⟩ := row_of_mem_history hlaterFits hrest
      have hcount := (hlater.fits hfits).rowCount_lt first.kind
      rw [add_handle (hlater.fits hfits)] at hkinds ⊢
      have hsame : first.kind = entry.1.kind := hkinds.trans hkind
      rw [rowCount_add, if_pos rfl] at hcount
      rw [rowCount_add, if_pos hsame, ← hsame] at hrow
      rw [UInt32.lt_iff_toNat_lt, toNat_ofNat_row hcount]
      exact hrow

end TypeProjection.Metadata.Registry

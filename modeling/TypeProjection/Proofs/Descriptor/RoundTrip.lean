import TypeProjection.Descriptor.Decoding
import TypeProjection.Proofs.Signature.Exactness

/-!
# Descriptors and the signatures that write them

A descriptor is written by many signatures, which differ in the widths of their
integers and in the word before a handle.  Decoding takes all of them back to the
descriptor, and it yields no other descriptors than those that can be written: the
well-formed ones.
-/

namespace TypeProjection

open TypeProjection.Metadata TypeProjection.Signature

/-! ## Well-formed descriptors -/

/-- Dimensions that a signature can hold. -/
structure Signature.Dimensions.WellFormed (dimensions : Dimensions) : Prop where
  one_le_rank : 1 ≤ dimensions.rank
  rank_le : dimensions.rank ≤ maxCompressed
  length_sizes_le : dimensions.sizes.length ≤ dimensions.rank.toNat
  sizes_le : ∀ size ∈ dimensions.sizes, size ≤ maxCompressed
  length_lowerBounds_le : dimensions.lowerBounds.length ≤ dimensions.rank.toNat
  lowerBounds_range : ∀ lowerBound ∈ dimensions.lowerBounds,
    -0x10000000 ≤ lowerBound.toInt ∧ lowerBound.toInt ≤ 0x0FFFFFFF

namespace Descriptor

/-- The dimensions of the arrays in a descriptor, the outermost first. -/
def arrays : Descriptor → List Dimensions
  | primitive _ => []
  | named _ => []
  | array element dimensions => dimensions :: element.arrays
  | pointer element => element.arrays

/-- A leaf that a signature can hold: a primitive type, or a row that names a type. -/
inductive Nameable : Descriptor → Prop
  | primitive (code : Primitive) : Nameable (.primitive code)
  | definition {row : UInt32} : 1 ≤ row → row ≤ maxRow →
      Nameable (.named ⟨.typeDefinition, row⟩)
  | reference {row : UInt32} : 1 ≤ row → row ≤ maxRow →
      Nameable (.named ⟨.typeReference, row⟩)

/-- A descriptor whose leaf and whose dimensions a signature can hold. -/
structure Admissible (descriptor : Descriptor) : Prop where
  leaf : descriptor.leaf.Nameable
  arrays : ∀ dimensions ∈ descriptor.arrays, dimensions.WellFormed

/-- An admissible descriptor that is not nested too deeply.  Its leaf is a type too and
takes one of the levels. -/
structure WellFormed (descriptor : Descriptor) : Prop extends Admissible descriptor where
  depth : descriptor.depth ≤ maxNesting - 1

theorem wellFormed_iff {descriptor : Descriptor} :
    descriptor.WellFormed ↔ descriptor.Admissible ∧ descriptor.depth < maxNesting :=
  ⟨fun h => ⟨h.toAdmissible, Nat.lt_succ_of_le h.depth⟩,
    fun ⟨hadmissible, hdepth⟩ => ⟨hadmissible, Nat.le_of_lt_succ hdepth⟩⟩

theorem Admissible.primitive (code : Primitive) : Admissible (.primitive code) :=
  ⟨.primitive code, List.forall_mem_nil _⟩

theorem admissible_named_iff {handle : Handle} :
    Admissible (.named handle) ↔ Nameable (.named handle) :=
  ⟨Admissible.leaf, fun hleaf => ⟨hleaf, List.forall_mem_nil _⟩⟩

theorem admissible_pointer_iff {element : Descriptor} :
    Admissible (.pointer element) ↔ element.Admissible :=
  ⟨fun ⟨hleaf, harrays⟩ => ⟨hleaf, harrays⟩, fun ⟨hleaf, harrays⟩ => ⟨hleaf, harrays⟩⟩

theorem admissible_array_iff {element : Descriptor} {dimensions : Dimensions} :
    Admissible (.array element dimensions) ↔ element.Admissible ∧ dimensions.WellFormed := by
  constructor
  · intro harray
    obtain ⟨hdimensions, harrays⟩ := List.forall_mem_cons.mp harray.arrays
    exact ⟨⟨harray.leaf, harrays⟩, hdimensions⟩
  · intro hparts
    exact ⟨hparts.1.leaf, List.forall_mem_cons.mpr ⟨hparts.2, hparts.1.arrays⟩⟩

end Descriptor

/-! ## Numbers that can be written -/

namespace Signature

theorem exists_unsignedForm_iff {number : UInt32} :
    (∃ bytes, UnsignedForm number bytes) ↔ number ≤ maxCompressed := by
  rw [UInt32.le_iff_toNat_le]
  constructor
  · intro hbytes
    obtain ⟨bytes, width, hnumber, -⟩ := hbytes
    exact Nat.le_of_lt_succ (Nat.lt_of_lt_of_le hnumber width.capacity_le)
  · intro hnumber
    exact ⟨_, .four, Nat.lt_succ_of_le hnumber, rfl⟩

theorem exists_signedForm_iff {number : Int32} :
    (∃ bytes, SignedForm number bytes) ↔
      -0x10000000 ≤ number.toInt ∧ number.toInt ≤ 0x0FFFFFFF := by
  constructor
  · intro hbytes
    obtain ⟨bytes, width, hrange, -⟩ := hbytes
    have hweight := width.signWeight_le
    omega
  · intro hrange
    refine ⟨_, .four, ?_, rfl⟩
    change -0x10000000 ≤ number.toInt ∧ number.toInt < 0x10000000
    omega

theorem exists_sequence_iff {α : Type} {item : α → List UInt8 → Prop} {values : List α} :
    (∃ bytes, Sequence item values bytes) ↔ ∀ value ∈ values, ∃ bytes, item value bytes := by
  induction values with
  | nil => exact ⟨fun _ => List.forall_mem_nil _, fun _ => ⟨[], .nil⟩⟩
  | cons value values ih =>
      rw [List.forall_mem_cons, ← ih]
      constructor
      · intro hbytes
        obtain ⟨bytes, hsequence⟩ := hbytes
        cases hsequence with
        | cons hitem hrest => exact ⟨⟨_, hitem⟩, _, hrest⟩
      · intro hparts
        obtain ⟨⟨head, hhead⟩, tail, htail⟩ := hparts
        exact ⟨head ++ tail, .cons hhead htail⟩

theorem exists_countedForm_iff {α : Type} {item : α → List UInt8 → Prop} {values : List α} :
    (∃ bytes, CountedForm item values bytes) ↔
      values.length ≤ maxCompressed.toNat ∧ ∀ value ∈ values, ∃ bytes, item value bytes := by
  rw [← exists_sequence_iff]
  constructor
  · intro hbytes
    obtain ⟨bytes, hcount, hitems⟩ := hbytes
    obtain ⟨width, hlength, -⟩ := hcount
    exact ⟨Nat.le_of_lt_succ (Nat.lt_of_lt_of_le hlength width.capacity_le), _, hitems⟩
  · intro hparts
    obtain ⟨hlength, items, hitems⟩ := hparts
    have hcount : IntegerForm values.length (Width.four.form values.length) :=
      ⟨.four, Nat.lt_succ_of_le hlength, rfl⟩
    exact ⟨_, .mk hcount hitems⟩

namespace Dimensions

variable {dimensions : Dimensions} {bytes : List UInt8}

/-- The bytes write the dimensions: the rank, the number of sizes and the sizes, the
number of lower bounds and the lower bounds. -/
inductive WrittenAs : Dimensions → List UInt8 → Prop
  | mk {dimensions : Dimensions} {rank sizes lowerBounds : List UInt8} :
      UnsignedForm dimensions.rank rank →
      CountedForm UnsignedForm dimensions.sizes sizes →
      CountedForm SignedForm dimensions.lowerBounds lowerBounds →
        WrittenAs dimensions (rank ++ (sizes ++ lowerBounds))

theorem WellFormed.exists_writtenAs (hdimensions : dimensions.WellFormed) :
    ∃ bytes, dimensions.WrittenAs bytes := by
  have hrank := UInt32.le_iff_toNat_le.mp hdimensions.rank_le
  obtain ⟨rank, hrankForm⟩ := exists_unsignedForm_iff.mpr hdimensions.rank_le
  obtain ⟨sizes, hsizes⟩ : ∃ bytes, CountedForm UnsignedForm dimensions.sizes bytes := by
    refine exists_countedForm_iff.mpr ⟨Nat.le_trans hdimensions.length_sizes_le hrank, ?_⟩
    intro size hsize
    exact exists_unsignedForm_iff.mpr (hdimensions.sizes_le size hsize)
  obtain ⟨lowerBounds, hlowerBounds⟩ :
      ∃ bytes, CountedForm SignedForm dimensions.lowerBounds bytes := by
    refine exists_countedForm_iff.mpr ⟨Nat.le_trans hdimensions.length_lowerBounds_le hrank, ?_⟩
    intro lowerBound hlowerBound
    exact exists_signedForm_iff.mpr (hdimensions.lowerBounds_range lowerBound hlowerBound)
  exact ⟨_, .mk hrankForm hsizes hlowerBounds⟩

/-- The grammar of dimensions is made of what writes them and of what can be written. -/
theorem dimensionsForm_iff :
    DimensionsForm dimensions bytes ↔ dimensions.WrittenAs bytes ∧ dimensions.WellFormed := by
  constructor
  · intro hform
    obtain ⟨hpositive, hsizesLimit, hboundsLimit, hrank, hsizes, hlowerBounds⟩ := hform
    refine ⟨.mk hrank hsizes hlowerBounds, ?_⟩
    obtain ⟨-, hsizesFit⟩ := exists_countedForm_iff.mp ⟨_, hsizes⟩
    obtain ⟨-, hboundsFit⟩ := exists_countedForm_iff.mp ⟨_, hlowerBounds⟩
    exact {
      one_le_rank := hpositive
      rank_le := exists_unsignedForm_iff.mp ⟨_, hrank⟩
      length_sizes_le := hsizesLimit
      sizes_le := fun size hsize => exists_unsignedForm_iff.mp (hsizesFit size hsize)
      length_lowerBounds_le := hboundsLimit
      lowerBounds_range := fun bound hbound =>
        exists_signedForm_iff.mp (hboundsFit bound hbound) }
  · intro hdimensions
    obtain ⟨⟨hrank, hsizes, hlowerBounds⟩, hwell⟩ := hdimensions
    exact .mk hwell.one_le_rank hwell.length_sizes_le hwell.length_lowerBounds_le hrank hsizes
      hlowerBounds

end Dimensions

end Signature

namespace Descriptor

/-! ## Signatures that write a descriptor -/

/-- The bytes write the descriptor as a type signature. -/
inductive WrittenAs : Descriptor → List UInt8 → Prop
  | primitive (code : Primitive) : WrittenAs (.primitive code) [code.code]
  | definition {row : UInt32} {index : List UInt8} (form : NamedForm) :
      IntegerForm (codedIndex row 0) index →
        WrittenAs (.named ⟨.typeDefinition, row⟩) (form.element.code :: index)
  | reference {row : UInt32} {index : List UInt8} (form : NamedForm) :
      IntegerForm (codedIndex row 1) index →
        WrittenAs (.named ⟨.typeReference, row⟩) (form.element.code :: index)
  | pointer {element : Descriptor} {bytes : List UInt8} :
      WrittenAs element bytes →
        WrittenAs (.pointer element) (ElementType.pointer.code :: bytes)
  | array {element : Descriptor} {dimensions : Dimensions} {bytes shape : List UInt8} :
      WrittenAs element bytes → dimensions.WrittenAs shape →
        WrittenAs (.array element dimensions) (ElementType.array.code :: (bytes ++ shape))

theorem exists_codedIndexForm {row : UInt32} {tag : Nat} (hrow : row ≤ maxRow)
    (htag : tag < 4) : ∃ index, IntegerForm (codedIndex row tag) index := by
  refine ⟨_, .four, ?_, rfl⟩
  rw [UInt32.le_iff_toNat_le] at hrow
  change row.toNat ≤ 0x00FFFFFF at hrow
  change codedIndex row tag < 0x20000000
  rw [codedIndex_eq row htag]
  omega

theorem Admissible.exists_writtenAs {descriptor : Descriptor}
    (hadmissible : descriptor.Admissible) : ∃ bytes, descriptor.WrittenAs bytes := by
  induction descriptor with
  | primitive code => exact ⟨_, .primitive code⟩
  | named handle =>
      cases admissible_named_iff.mp hadmissible with
      | definition _ hrow =>
          obtain ⟨index, hindex⟩ := exists_codedIndexForm hrow (by decide : 0 < 4)
          exact ⟨_, .definition .classType hindex⟩
      | reference _ hrow =>
          obtain ⟨index, hindex⟩ := exists_codedIndexForm hrow (by decide : 1 < 4)
          exact ⟨_, .reference .classType hindex⟩
  | array element dimensions ih =>
      obtain ⟨helement, hdimensions⟩ := admissible_array_iff.mp hadmissible
      obtain ⟨bytes, hbytes⟩ := ih helement
      obtain ⟨shape, hshape⟩ := hdimensions.exists_writtenAs
      exact ⟨_, .array hbytes hshape⟩
  | pointer element ih =>
      obtain ⟨bytes, hbytes⟩ := ih (admissible_pointer_iff.mp hadmissible)
      exact ⟨_, .pointer hbytes⟩

/-! ## Decoding -/

/-- The words that decode to a descriptor in a number of levels. -/
structure WrittenWithin (levels : Nat) (descriptor : Descriptor) (bytes : List UInt8) :
    Prop where
  written : descriptor.WrittenAs bytes
  admissible : descriptor.Admissible
  depth : descriptor.depth < levels

end Descriptor

namespace Signature.Decode

open Descriptor

variable {inner : Decode Descriptor Descriptor} {levels : Nat} {cursor after : Cursor}
  {descriptor : Descriptor}

/-- What every continuation refuses is refused by the whole. -/
theorem not_yields_bind {τ α β : Type} {first : Decode τ α} {next : α → Decode τ β}
    {cursor after : Cursor} {result : β}
    (hnext : ∀ value middle, ¬ (next value).Yields middle result after) :
    ¬ (first >>= next).Yields cursor result after := by
  intro hyields
  obtain ⟨value, middle, -, hresult⟩ := yields_bind_iff.mp hyields
  exact hnext value middle hresult

/-- Descriptors are built from the core productions only. -/
theorem not_yields_optional {start : Nat} {production : OptionalProduction Descriptor} :
    ¬ (call Descriptor.builder start (.optional production)).Yields cursor descriptor after := by
  intro hyields
  cases (yields_call_iff.mp hyields).1

/-- A row that fits into a token is the row of the handle. -/
theorem build_definition {row : UInt32} (hrow : row ≤ maxRow) (form : NamedForm) :
    Descriptor.builder.build (.core (.definition ⟨row⟩ form)) =
      .ok (.named ⟨.typeDefinition, row⟩) := by
  rw [← Handle.ofRow_eq .typeDefinition hrow]
  rfl

theorem build_reference {row : UInt32} (hrow : row ≤ maxRow) (form : NamedForm) :
    Descriptor.builder.build (.core (.reference ⟨row⟩ form)) =
      .ok (.named ⟨.typeReference, row⟩) := by
  rw [← Handle.ofRow_eq .typeReference hrow]
  rfl

theorem writtenWithin_of_handleForm {form : NamedForm} {production : Production Descriptor}
    {bytes : List UInt8} (hbuild : Descriptor.builder.build production = .ok descriptor)
    (hform : HandleForm form production bytes) :
    descriptor.WrittenWithin (levels + 1) (form.element.code :: bytes) := by
  obtain ⟨index, hname, hindex⟩ := hform
  cases hname with
  | definition hlow hhigh =>
      rw [build_definition hhigh form] at hbuild
      rw [← Except.ok.inj hbuild]
      exact ⟨.definition form hindex, admissible_named_iff.mpr (.definition hlow hhigh),
        Nat.succ_pos levels⟩
  | reference hlow hhigh =>
      rw [build_reference hhigh form] at hbuild
      rw [← Except.ok.inj hbuild]
      exact ⟨.reference form hindex, admissible_named_iff.mpr (.reference hlow hhigh),
        Nat.succ_pos levels⟩
  | specification => cases hbuild

theorem composite_named {builder : Builder Descriptor} (form : NamedForm) (start : Nat) :
    composite builder inner start form.element = named builder form start := by
  cases form <;> rfl

/-- What follows an element type is the remainder of a word. -/
theorem writtenWithin_of_composite
    (hinner : inner.Recognizes (WrittenWithin levels)) {start : Nat} {element : ElementType}
    (hyields : (composite Descriptor.builder inner start element).Yields
      cursor descriptor after) :
    ∃ bytes, descriptor.WrittenWithin (levels + 1) (element.code :: bytes) ∧
      cursor.Passes bytes after := by
  cases element with
  | pointer =>
      obtain ⟨bytes, ⟨element, hbuild, helement⟩, hpasses⟩ :=
        (hinner.calledBy Descriptor.builder start _ _ _ _).mp hyields
      rw [← Except.ok.inj hbuild]
      exact ⟨bytes, ⟨.pointer helement.written, admissible_pointer_iff.mpr helement.admissible,
        Nat.succ_lt_succ helement.depth⟩, hpasses⟩
  | array =>
      obtain ⟨element, middle, helement, hyields⟩ := yields_bind_iff.mp hyields
      obtain ⟨bytes, helement, hpasses⟩ := (hinner _ _ _).mp helement
      obtain ⟨shape, ⟨dimensions, hbuild, hshape⟩, hpassesShape⟩ :=
        (recognizes_dimensions.calledBy Descriptor.builder start _ _ _ _).mp hyields
      obtain ⟨hwritten, hdimensions⟩ := Dimensions.dimensionsForm_iff.mp hshape
      rw [← Except.ok.inj hbuild]
      exact ⟨bytes ++ shape, ⟨.array helement.written hwritten,
        admissible_array_iff.mpr ⟨helement.admissible, hdimensions⟩,
        Nat.succ_lt_succ helement.depth⟩, hpasses.trans hpassesShape⟩
  | classType =>
      obtain ⟨bytes, ⟨production, hbuild, hform⟩, hpasses⟩ :=
        (recognizes_namedBy Descriptor.builder .classType start _ _ _).mp hyields
      exact ⟨bytes, writtenWithin_of_handleForm hbuild hform, hpasses⟩
  | valueType =>
      obtain ⟨bytes, ⟨production, hbuild, hform⟩, hpasses⟩ :=
        (recognizes_namedBy Descriptor.builder .valueType start _ _ _).mp hyields
      exact ⟨bytes, writtenWithin_of_handleForm hbuild hform, hpasses⟩
  | vector => exact absurd hyields (not_yields_bind fun _ _ => not_yields_optional)
  | byReference => exact absurd hyields (not_yields_bind fun _ _ => not_yields_optional)
  | pinned => exact absurd hyields (not_yields_bind fun _ _ => not_yields_optional)
  | typeVariable => exact absurd hyields (not_yields_bind fun _ _ => not_yields_optional)
  | methodVariable => exact absurd hyields (not_yields_bind fun _ _ => not_yields_optional)
  | functionPointer => exact absurd hyields (not_yields_bind fun _ _ => not_yields_optional)
  | genericInstance =>
      exact absurd hyields (not_yields_bind fun _ _ => not_yields_bind fun _ _ =>
        not_yields_bind fun _ _ => not_yields_bind fun _ _ => not_yields_bind fun _ _ =>
          not_yields_optional)
  | requiredModifier =>
      exact absurd hyields (not_yields_bind fun _ _ => not_yields_bind fun _ _ =>
        not_yields_bind fun _ _ => not_yields_optional)
  | optionalModifier =>
      exact absurd hyields (not_yields_bind fun _ _ => not_yields_bind fun _ _ =>
        not_yields_bind fun _ _ => not_yields_optional)
  | typedReference => exact absurd hyields not_yields_unsupported
  | sentinel => simp [composite] at hyields

/-- A word is decoded, whatever stands behind it. -/
theorem yields_production_of_written (hinner : inner.Recognizes (WrittenWithin levels))
    {bytes : List UInt8} (hwithin : descriptor.WrittenWithin (levels + 1) bytes)
    (hpasses : cursor.Passes bytes after) :
    (production Descriptor.builder inner).Yields cursor descriptor after := by
  obtain ⟨hwritten, hadmissible, hdepth⟩ := hwithin
  rw [yields_production_iff]
  cases hwritten with
  | primitive code => exact .inl ⟨code, rfl, hpasses⟩
  | definition form hindex =>
      obtain ⟨middle, hpassesLead, hpasses⟩ := Cursor.passes_cons_iff.mp hpasses
      refine .inr ⟨form.element, middle, hpassesLead, ?_⟩
      cases admissible_named_iff.mp hadmissible with
      | definition hlow hhigh =>
          rw [composite_named]
          exact (recognizes_namedBy _ _ _ _ _ _).mpr
            ⟨_, ⟨_, build_definition hhigh form, _, .definition hlow hhigh, hindex⟩, hpasses⟩
  | reference form hindex =>
      obtain ⟨middle, hpassesLead, hpasses⟩ := Cursor.passes_cons_iff.mp hpasses
      refine .inr ⟨form.element, middle, hpassesLead, ?_⟩
      cases admissible_named_iff.mp hadmissible with
      | reference hlow hhigh =>
          rw [composite_named]
          exact (recognizes_namedBy _ _ _ _ _ _).mpr
            ⟨_, ⟨_, build_reference hhigh form, _, .reference hlow hhigh, hindex⟩, hpasses⟩
  | pointer hbytes =>
      obtain ⟨middle, hpassesLead, hpasses⟩ := Cursor.passes_cons_iff.mp hpasses
      have helement := WrittenWithin.mk hbytes (admissible_pointer_iff.mp hadmissible)
        (Nat.lt_of_succ_lt_succ hdepth)
      exact .inr ⟨.pointer, middle, hpassesLead,
        (hinner.calledBy _ _ _ _ _ _).mpr ⟨_, ⟨_, rfl, helement⟩, hpasses⟩⟩
  | array hbytes hshape =>
      obtain ⟨middle, hpassesLead, hpasses⟩ := Cursor.passes_cons_iff.mp hpasses
      obtain ⟨afterElement, hpasses, hpassesShape⟩ := Cursor.passes_append_iff.mp hpasses
      obtain ⟨helement, hdimensions⟩ := admissible_array_iff.mp hadmissible
      have helement := WrittenWithin.mk hbytes helement (Nat.lt_of_succ_lt_succ hdepth)
      have hshape := Dimensions.dimensionsForm_iff.mpr ⟨hshape, hdimensions⟩
      refine .inr ⟨.array, middle, hpassesLead, ?_⟩
      refine ((hinner _ _ _).mpr ⟨_, helement, hpasses⟩).bind ?_
      exact (recognizes_dimensions.calledBy _ _ _ _ _ _).mpr
        ⟨_, ⟨_, rfl, hshape⟩, hpassesShape⟩

theorem recognizes_descriptorWithin (levels : Nat) :
    (typeWithin Descriptor.builder levels).Recognizes (WrittenWithin levels) := by
  induction levels with
  | zero =>
      intro cursor descriptor after
      constructor
      · intro hyields
        simp [typeWithin] at hyields
      · intro hwithin
        obtain ⟨bytes, hwithin, -⟩ := hwithin
        exact absurd hwithin.depth (Nat.not_lt_zero _)
  | succ levels ih =>
      intro cursor descriptor after
      constructor
      · intro hyields
        rcases yields_production_iff.mp hyields with
          ⟨code, hbuild, hpasses⟩ | ⟨element, middle, hpassesLead, hyields⟩
        · rw [← Except.ok.inj hbuild]
          exact ⟨_, ⟨.primitive code, .primitive code, Nat.succ_pos levels⟩, hpasses⟩
        · obtain ⟨bytes, hwithin, hpasses⟩ := writtenWithin_of_composite ih hyields
          exact ⟨_, hwithin, hpassesLead.trans hpasses⟩
      · intro hwithin
        obtain ⟨bytes, hwithin, hpasses⟩ := hwithin
        exact yields_production_of_written ih hwithin hpasses

/-! ## Method signatures -/

/-- Whatever the computation yields has the property. -/
def Ensures {τ α : Type} (computation : Decode τ α) (property : α → Prop) : Prop :=
  ∀ cursor value after, computation.Yields cursor value after → property value

variable {τ α : Type} {property : τ → Prop}

theorem Ensures.times {item : Decode τ α} {property : α → Prop} (hitem : item.Ensures property)
    (count : Nat) :
    (Signature.times count item).Ensures fun values => ∀ value ∈ values, property value := by
  induction count with
  | zero =>
      intro cursor values after hyields
      rw [(yields_pure_iff.mp hyields).1]
      exact List.forall_mem_nil _
  | succ count ih =>
      intro cursor values after hyields
      obtain ⟨head, middle, hhead, hyields⟩ := yields_bind_iff.mp hyields
      obtain ⟨tail, last, htail, hyields⟩ := yields_bind_iff.mp hyields
      rw [(yields_pure_iff.mp hyields).1, List.forall_mem_cons]
      exact ⟨hitem _ _ _ hhead, ih _ _ _ htail⟩

theorem ensures_parameter {inner : Decode τ τ} (hinner : inner.Ensures property) :
    (parameter inner).Ensures property := by
  intro cursor value after hparameter
  obtain ⟨next, middle, -, hyields⟩ := yields_bind_iff.mp hparameter
  by_cases hsentinel : next = ElementType.sentinel.code
  · rw [if_pos hsentinel, yields_offset_iff] at hyields
    exact absurd hyields not_yields_unsupported
  · rw [if_neg hsentinel] at hyields
    exact hinner _ _ _ hyields

theorem ensures_methodTypes {inner : Decode τ τ} (hinner : inner.Ensures property)
    (header : Header) (genericArity : UInt32) :
    (methodTypes inner header genericArity).Ensures fun signature =>
      ∀ type ∈ signature.types, property type := by
  intro cursor signature after hyields
  obtain ⟨count, afterCount, -, hyields⟩ := yields_bind_iff.mp hyields
  obtain ⟨returnType, afterReturn, hreturn, hyields⟩ := yields_bind_iff.mp hyields
  obtain ⟨parameters, afterListed, hlisted, hyields⟩ := yields_bind_iff.mp hyields
  rw [(yields_pure_iff.mp hyields).1, MethodSignature.types, List.forall_mem_cons]
  exact ⟨hinner _ _ _ hreturn, (ensures_parameter hinner).times _ _ _ _ hlisted⟩

/-- What holds of every type that is decoded holds of all types of a method. -/
theorem ensures_method {inner : Decode τ τ} (hinner : inner.Ensures property) :
    (method inner).Ensures fun signature => ∀ type ∈ signature.types, property type := by
  intro cursor signature after hyields
  rw [method_eq] at hyields
  obtain ⟨header, afterHeader, -, hyields⟩ := yields_bind_iff.mp hyields
  by_cases hgeneric : header.isGeneric
  · rw [if_pos hgeneric] at hyields
    obtain ⟨arity, afterArity, -, hyields⟩ := yields_bind_iff.mp hyields
    exact ensures_methodTypes hinner header arity _ _ _ hyields
  · rw [if_neg hgeneric] at hyields
    exact ensures_methodTypes hinner header 0 _ _ _ hyields

end Signature.Decode

/-! ## Whole signatures -/

namespace Descriptor

open Signature.Decode

variable {blob : List UInt8} {descriptor : Descriptor}

theorem writtenWithin_maxNesting_iff :
    descriptor.WrittenWithin maxNesting blob ↔
      descriptor.WellFormed ∧ descriptor.WrittenAs blob := by
  constructor
  · intro hwithin
    exact ⟨wellFormed_iff.mpr ⟨hwithin.admissible, hwithin.depth⟩, hwithin.written⟩
  · intro hwritten
    obtain ⟨hadmissible, hdepth⟩ := wellFormed_iff.mp hwritten.1
    exact ⟨hwritten.2, hadmissible, hdepth⟩

theorem decode_eq_ok_iff {α : Type} {decoder : Decode Descriptor α} {value : α} :
    decode decoder blob = .ok value ↔ (decoder.run (.start blob)).result = .ok value :=
  mapError_eq_ok_iff

/-- Decoding inverts writing on the well-formed descriptors and yields no others. -/
theorem decodeType_eq_ok_iff :
    decodeType blob = .ok descriptor ↔ descriptor.WellFormed ∧ descriptor.WrittenAs blob := by
  rw [← writtenWithin_maxNesting_iff]
  exact decode_eq_ok_iff.trans ((recognizes_descriptorWithin maxNesting).whole blob descriptor)

/-- A pointer to an array of a class, with one of two sizes and both lower bounds. -/
example : decodeType [0x0F, 0x14, 0x12, 0x05, 0x02, 0x01, 0x04, 0x02, 0x7F, 0x02] =
    .ok (.pointer (.array (.named ⟨.typeReference, 1⟩) ⟨2, [4], [-1, 1]⟩)) := by
  rfl

theorem ensures_type : (Decode.type builder).Ensures WellFormed := by
  intro cursor descriptor after hyields
  obtain ⟨bytes, hwithin, -⟩ := (recognizes_descriptorWithin maxNesting _ _ _).mp hyields
  exact (writtenWithin_maxNesting_iff.mp hwithin).1

theorem wellFormed_of_decodeField (hdecode : decodeField blob = .ok descriptor) :
    descriptor.WellFormed := by
  obtain ⟨header, middle, -, hyields⟩ :=
    yields_bind_iff.mp ⟨decode_eq_ok_iff.mp hdecode, rfl⟩
  obtain ⟨type, last, htype, hyields⟩ := yields_bind_iff.mp hyields
  obtain ⟨_, _, -, hyields⟩ := yields_bind_iff.mp hyields
  rw [(yields_pure_iff.mp hyields).1]
  exact ensures_type _ _ _ htype

theorem wellFormed_of_decodeMethod {signature : MethodSignature Descriptor}
    (hdecode : decodeMethod blob = .ok signature) :
    ∀ descriptor ∈ signature.types, descriptor.WellFormed := by
  obtain ⟨decoded, middle, hdecoded, hyields⟩ :=
    yields_bind_iff.mp ⟨decode_eq_ok_iff.mp hdecode, rfl⟩
  obtain ⟨_, _, -, hyields⟩ := yields_bind_iff.mp hyields
  rw [(yields_pure_iff.mp hyields).1]
  exact ensures_method ensures_type _ _ _ hdecoded

/-- Decoding and writing are inverse to each other.  Only well-formed descriptors are
decoded, from types, fields and methods alike; a well-formed descriptor can be written,
and every signature that writes it decodes to it. -/
theorem decode_roundTrip :
    (∀ blob descriptor, decodeType blob = .ok descriptor → descriptor.WellFormed) ∧
    (∀ blob descriptor, decodeField blob = .ok descriptor → descriptor.WellFormed) ∧
    (∀ blob signature, decodeMethod blob = .ok signature →
      ∀ descriptor ∈ signature.types, descriptor.WellFormed) ∧
    (∀ descriptor : Descriptor, descriptor.WellFormed →
      (∃ blob, descriptor.WrittenAs blob) ∧
        ∀ blob, descriptor.WrittenAs blob → decodeType blob = .ok descriptor) ∧
    ∀ descriptor : Descriptor,
      (∃ blob, decodeType blob = .ok descriptor) ↔ descriptor.WellFormed := by
  refine ⟨?_, ?_, ?_, ?_, ?_⟩
  · intro blob descriptor hdecode
    exact (decodeType_eq_ok_iff.mp hdecode).1
  · intro blob descriptor
    exact wellFormed_of_decodeField
  · intro blob signature
    exact wellFormed_of_decodeMethod
  · intro descriptor hwell
    refine ⟨hwell.exists_writtenAs, ?_⟩
    intro blob hwritten
    exact decodeType_eq_ok_iff.mpr ⟨hwell, hwritten⟩
  · intro descriptor
    constructor
    · intro hdecode
      obtain ⟨blob, hdecode⟩ := hdecode
      exact (decodeType_eq_ok_iff.mp hdecode).1
    · intro hwell
      obtain ⟨blob, hwritten⟩ := hwell.exists_writtenAs
      exact ⟨blob, decodeType_eq_ok_iff.mpr ⟨hwell, hwritten⟩⟩

end Descriptor

end TypeProjection

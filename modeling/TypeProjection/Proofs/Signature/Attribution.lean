import TypeProjection.Proofs.Signature.Displacement
import TypeProjection.Proofs.Signature.Faults
import TypeProjection.Signature.Spelling

/-!
# Errors are about the bytes at their offset

Every error that a step returns describes the bytes at its offset.  For the builder
of trees this is shown function by function: a computation fails in one of its
parts, and everything before that part is recognized.  Other builders only add the
productions that they decline.
-/

namespace TypeProjection.Signature

open TypeProjection.Metadata

variable {τ α : Type} {origin cursor after : Cursor} {error : SignatureError}

/-! ## Moving the start -/

theorem TypeFault.prepend {deep deep' : List UInt8 → Prop} {head passed bytes rest : List UInt8}
    (hfault : TypeFault deep passed bytes rest error)
    (hdeep : ∀ passed, deep passed → deep' (head ++ passed)) :
    TypeFault deep' (head ++ passed) bytes rest error := by
  cases hfault with
  | unexpectedEnd => exact .unexpectedEnd
  | invalidCompressedInteger hbyte => exact .invalidCompressedInteger hbyte
  | unknownElementType hbyte => exact .unknownElementType hbyte
  | unknownForm hclass hvalue =>
      rw [← List.append_assoc]
      exact .unknownForm hclass hvalue
  | invalidCodedIndex hform hcoded => exact .invalidCodedIndex hform hcoded
  | unexpectedHeader hkind =>
      rw [← List.append_assoc]
      exact .unexpectedHeader hkind
  | invalidDimensions hdimensions => exact .invalidDimensions hdimensions
  | nestingTooDeep hpassed => exact .nestingTooDeep (hdeep _ hpassed)
  | typedReference => exact .typedReference
  | sentinel => exact .sentinel

namespace Pinpoints

variable {describes describes' : List UInt8 → List UInt8 → List UInt8 → SignatureError → Prop}

/-- An error about what starts right at the origin. -/
theorem here {bytes : List UInt8} (hpasses : cursor.Passes bytes after)
    (hoffset : error.offset = cursor.offset) (hdescribes : describes [] bytes after.rest error) :
    Pinpoints describes cursor error after :=
  ⟨[], bytes, cursor, .refl cursor, hpasses, hoffset, hdescribes⟩

theorem widen {head : List UInt8} (hpinpoints : Pinpoints describes cursor error after)
    (hhead : origin.Passes head cursor)
    (hdescribes : ∀ passed bytes rest, describes passed bytes rest error →
      describes' (head ++ passed) bytes rest error) :
    Pinpoints describes' origin error after := by
  obtain ⟨passed, bytes, place, hpassed, hbytes, hoffset, hdescription⟩ := hpinpoints
  exact ⟨head ++ passed, bytes, place, hhead.trans hpassed, hbytes, hoffset,
    hdescribes _ _ _ hdescription⟩

theorem inside {deep deep' : List UInt8 → Prop} {head : List UInt8}
    (hpinpoints : Pinpoints (TypeFault deep) cursor error after)
    (hhead : origin.Passes head cursor)
    (hdeep : ∀ passed, deep passed → deep' (head ++ passed)) :
    Pinpoints (TypeFault deep') origin error after :=
  hpinpoints.widen hhead fun _ _ _ hfault => hfault.prepend hdeep

/-- A read does not nest, so its faults are faults anywhere. -/
theorem read {deep : List UInt8 → Prop} {head : List UInt8}
    (hpinpoints : Pinpoints ReadFault cursor error after)
    (hhead : origin.Passes head cursor) : Pinpoints (TypeFault deep) origin error after :=
  hpinpoints.inside hhead fun _ hfalse => hfalse.elim

end Pinpoints

namespace Decode

/-! ## Reads -/

theorem pinpoints_byte
    (hfails : (liftM Read.byte : Decode τ UInt8).Fails cursor error after) :
    Pinpoints ReadFault cursor error after := by
  obtain ⟨rfl, rfl, hrest⟩ := fails_byte_iff.mp hfails
  apply Pinpoints.here (.refl after) rfl
  rw [hrest]
  exact .unexpectedEnd

theorem pinpoints_compressed
    (hfails : (liftM Read.compressed : Decode τ (Width × Nat)).Fails cursor error after) :
    Pinpoints ReadFault cursor error after := by
  simp only [Read.compressed, liftM_bind, fails_offset_iff] at hfails
  rcases fails_bind_iff.mp hfails with hbyte | ⟨first, middle, hfirst, hextra⟩
  · exact pinpoints_byte hbyte
  have hpassesFirst := yields_byte_iff.mp hfirst
  cases hlead : Width.ofLead? first with
  | none =>
      simp only [hlead, fails_malformedAt_iff] at hextra
      obtain ⟨rfl, rfl⟩ := hextra
      apply Pinpoints.here hpassesFirst rfl
      exact .invalidCompressedInteger (Width.ofLead?_eq_none_iff.mp hlead)
  | some width =>
      simp only [hlead, liftM_bind, liftM_times, liftM_pure] at hextra
      rcases fails_bind_iff.mp hextra with hbytes | ⟨_, _, _, hpure⟩
      · obtain ⟨values, bytes, place, -, -, hpasses, hbyte⟩ :=
          fails_times recognizes_byte hbytes
        exact (pinpoints_byte hbyte).read (hpassesFirst.trans hpasses)
      · exact absurd hpure not_fails_pure

theorem pinpoints_unsigned
    (hfails : (liftM Read.unsigned : Decode τ UInt32).Fails cursor error after) :
    Pinpoints ReadFault cursor error after := by
  simp only [Read.unsigned, liftM_bind, liftM_pure] at hfails
  rcases fails_bind_iff.mp hfails with hcompressed | ⟨_, _, _, hpure⟩
  · exact pinpoints_compressed hcompressed
  · exact absurd hpure not_fails_pure

theorem pinpoints_signed
    (hfails : (liftM Read.signed : Decode τ Int32).Fails cursor error after) :
    Pinpoints ReadFault cursor error after := by
  simp only [signed_eq, liftM_bind, liftM_pure] at hfails
  rcases fails_bind_iff.mp hfails with hcompressed | ⟨_, _, _, hpure⟩
  · exact pinpoints_compressed hcompressed
  · exact absurd hpure not_fails_pure

/-- A counted list fails in a read, or for a count above the limit. -/
theorem pinpoints_countedUpTo {item : Read α} {language : α → List UInt8 → Prop}
    (hitem : (liftM item : Decode τ α).Recognizes language)
    (hfault : ∀ {cursor error after}, (liftM item : Decode τ α).Fails cursor error after →
      Pinpoints ReadFault cursor error after)
    {limit : UInt32} {start : Nat}
    (hfails : (liftM (Read.countedUpTo limit start item) : Decode τ (List α)).Fails cursor
      error after) :
    Pinpoints ReadFault cursor error after ∨
      error = .malformed start .invalidDimensions ∧
        ∃ count bytes, IntegerForm count bytes ∧ limit.toNat < count ∧
          cursor.Passes bytes after := by
  simp only [Read.countedUpTo, liftM_bind] at hfails
  rcases fails_bind_iff.mp hfails with hunsigned | ⟨count, middle, hcount, hfails⟩
  · exact .inl (pinpoints_unsigned hunsigned)
  obtain ⟨counted, hform, hpasses⟩ := (recognizes_unsigned _ _ _).mp hcount
  by_cases hlimit : limit < count
  · rw [if_pos hlimit, fails_malformedAt_iff] at hfails
    obtain ⟨rfl, rfl⟩ := hfails
    exact .inr ⟨rfl, count.toNat, counted, hform, UInt32.lt_iff_toNat_lt.mp hlimit, hpasses⟩
  · rw [if_neg hlimit, liftM_times] at hfails
    obtain ⟨values, bytes, place, -, -, hpassesItems, hlast⟩ := fails_times hitem hfails
    exact .inl ((hfault hlast).read (hpasses.trans hpassesItems))

theorem pinpoints_dimensions
    (hfails : (liftM Read.dimensions : Decode τ Dimensions).Fails cursor error after) :
    Pinpoints ReadFault cursor error after := by
  simp only [Read.dimensions, liftM_bind, fails_offset_iff] at hfails
  rcases fails_bind_iff.mp hfails with hunsigned | ⟨rank, afterRank, hrank, hfails⟩
  · exact pinpoints_unsigned hunsigned
  obtain ⟨ranked, hrankForm, hpassesRank⟩ := (recognizes_unsigned _ _ _).mp hrank
  by_cases hzero : rank = 0
  · rw [if_pos hzero, fails_malformedAt_iff] at hfails
    obtain ⟨rfl, rfl⟩ := hfails
    subst hzero
    exact Pinpoints.here hpassesRank rfl (.invalidDimensions (.rank hrankForm))
  have hpositive : 1 ≤ rank.toNat := UInt32.le_iff_toNat_le.mp (one_le_of_ne_zero hzero)
  rw [if_neg hzero] at hfails
  simp only [liftM_bind, liftM_pure] at hfails
  rcases fails_bind_iff.mp hfails with hsizes | ⟨sizes, afterSizes, hsizes, hfails⟩
  · rcases pinpoints_countedUpTo recognizes_unsigned pinpoints_unsigned hsizes with
      hread | ⟨rfl, count, counted, hform, hlimit, hpasses⟩
    · exact hread.read hpassesRank
    · apply Pinpoints.here (hpassesRank.trans hpasses) rfl
      exact .invalidDimensions (.sizes hpositive hrankForm hform hlimit)
  obtain ⟨sized, ⟨hsizesLimit, hsizesForm⟩, hpassesSizes⟩ :=
    (recognizes_countedUpTo recognizes_unsigned _ _ _ _ _).mp hsizes
  have hpassesSizes := hpassesRank.trans hpassesSizes
  rcases fails_bind_iff.mp hfails with hbounds | ⟨_, _, _, hpure⟩
  · rcases pinpoints_countedUpTo recognizes_signed pinpoints_signed hbounds with
      hread | ⟨rfl, count, counted, hform, hlimit, hpasses⟩
    · exact hread.read hpassesSizes
    · have hpasses := hpassesSizes.trans hpasses
      rw [List.append_assoc] at hpasses
      apply Pinpoints.here hpasses rfl
      exact .invalidDimensions
        (.lowerBounds hpositive hrankForm hsizesLimit hsizesForm hform hlimit)
  · exact absurd hpure not_fails_pure

theorem pinpoints_header {kind : HeaderKind}
    (hfails : (liftM (Read.header kind) : Decode τ Header).Fails cursor error after) :
    Pinpoints ReadFault cursor error after ∨
      ∃ header : Header, header.kind? ≠ some kind ∧ cursor.Passes [header.raw] after ∧
        error = .malformed cursor.offset (.unexpectedHeader header.raw) := by
  simp only [Read.header, liftM_bind, fails_offset_iff] at hfails
  rcases fails_bind_iff.mp hfails with hbyte | ⟨byte, middle, hbyte, hfails⟩
  · exact .inl (pinpoints_byte hbyte)
  by_cases hkind : (Header.mk byte).kind? = some kind
  · rw [if_pos hkind, liftM_pure] at hfails
    exact absurd hfails not_fails_pure
  · rw [if_neg hkind, fails_malformedAt_iff] at hfails
    obtain ⟨rfl, rfl⟩ := hfails
    exact .inr ⟨⟨byte⟩, hkind, yields_byte_iff.mp hbyte, rfl⟩

/-! ## Types -/

theorem encodes_cons {tree : TypeTree} {lead : UInt8} {bytes : List UInt8}
    (hencodes : Encodes tree (lead :: bytes)) :
    (∃ code, Primitive.ofCode? lead = some code) ∨
      ∃ element, ElementType.ofCode? lead = some element ∧
        CompositeForm Encodes element tree bytes := by
  obtain ⟨hform⟩ := hencodes
  cases hform with
  | primitive code => exact .inl ⟨code, Primitive.ofCode?_code code⟩
  | composite hform => exact .inr ⟨_, ElementType.ofCode?_code _, hform⟩

theorem startsNone_of_ofCode? {byte : UInt8} (hprimitive : Primitive.ofCode? byte = none)
    (helement : ElementType.ofCode? byte = none) : StartsNone byte := by
  intro tree bytes hencodes
  rcases encodes_cons hencodes with ⟨code, hcode⟩ | ⟨element, hcode, -⟩
  · cases hprimitive.symm.trans hcode
  · cases helement.symm.trans hcode

theorem startsNone_sentinel : StartsNone ElementType.sentinel.code := by
  intro tree bytes hencodes
  rcases encodes_cons hencodes with ⟨code, hcode⟩ | ⟨element, hcode, hform⟩
  · cases (Primitive.ofCode?_element .sentinel).symm.trans hcode
  · cases (ElementType.ofCode?_code .sentinel).symm.trans hcode
    cases hform

theorem not_fails_call {start : Nat} {production : Production TypeTree} :
    ¬ (call Builder.tree start production).Fails cursor error after := by
  rintro ⟨hresult, -⟩
  rw [run_call_ok (Builder.build_tree production)] at hresult
  cases hresult

theorem pinpoints_named {form : NamedForm} {start : Nat}
    (hfails : (named Builder.tree form start).Fails cursor error after) :
    Pinpoints ReadFault cursor error after := by
  rw [named] at hfails
  rw [fails_offset_iff] at hfails
  rcases fails_bind_iff.mp hfails with hunsigned | ⟨coded, middle, hcoded, hfails⟩
  · exact pinpoints_unsigned hunsigned
  obtain ⟨bytes, hform, hpasses⟩ := (recognizes_unsigned _ _ _).mp hcoded
  cases hnamed : (named? coded form : Option (Production TypeTree)) with
  | none =>
      simp only [hnamed, fails_malformedAt_iff] at hfails
      obtain ⟨rfl, rfl⟩ := hfails
      exact Pinpoints.here hpasses rfl
        (.invalidCodedIndex hform (named?_eq_none_iff.mp hnamed))
  | some production =>
      simp only [hnamed] at hfails
      exact absurd hfails not_fails_call

/-- Behind the byte of a generic instance only a class or a value type is known. -/
theorem pinpoints_namedForm
    (hlead : origin.Passes [ElementType.genericInstance.code] cursor)
    (hfails : (namedForm : Decode τ NamedForm).Fails cursor error after) :
    Pinpoints ReadFault origin error after := by
  simp only [namedForm, liftM_bind, fails_offset_iff] at hfails
  rcases fails_bind_iff.mp hfails with hbyte | ⟨byte, middle, hbyte, hfails⟩
  · exact (pinpoints_byte hbyte).read hlead
  have hpasses := yields_byte_iff.mp hbyte
  split at hfails
  next => exact absurd hfails not_fails_pure
  next => exact absurd hfails not_fails_pure
  next hclass hvalue =>
    rw [fails_malformedAt_iff] at hfails
    obtain ⟨rfl, rfl⟩ := hfails
    have hnotClass : byte ≠ ElementType.classType.code :=
      fun hbyte => hclass (ElementType.ofCode?_eq_some_iff.mpr hbyte)
    have hnotValue : byte ≠ ElementType.valueType.code :=
      fun hbyte => hvalue (ElementType.ofCode?_eq_some_iff.mpr hbyte)
    rw [← List.nil_append [ElementType.genericInstance.code]] at hlead
    exact ⟨_, _, cursor, hlead, hpasses, rfl, .unknownForm hnotClass hnotValue⟩

section

variable {levels : Nat}
  (htypes : ∀ {cursor error after}, (typeWithin Builder.tree levels).Fails cursor error after →
    Pinpoints (TypeFault (Opens levels)) cursor error after)

include htypes

theorem pinpoints_parameter
    (hfails : (parameter (typeWithin Builder.tree levels)).Fails cursor error after) :
    Pinpoints (TypeFault (Opens levels)) cursor error after := by
  rw [parameter] at hfails
  rcases fails_bind_iff.mp hfails with hpeek | ⟨next, middle, hpeek, hparameter⟩
  · obtain ⟨rfl, rfl, hrest⟩ := fails_peek_iff.mp hpeek
    apply Pinpoints.here (.refl after) rfl
    rw [hrest]
    exact .unexpectedEnd
  obtain ⟨rfl, rest, hrest⟩ := yields_peek_iff.mp hpeek
  by_cases hsentinel : next = ElementType.sentinel.code
  · rw [if_pos hsentinel, fails_offset_iff, fails_unsupported_iff] at hparameter
    obtain ⟨rfl, rfl⟩ := hparameter
    apply Pinpoints.here (.refl after) rfl
    rw [hrest, hsentinel]
    exact .sentinel
  · rw [if_neg hsentinel] at hparameter
    exact htypes hparameter

/-- The part of a method signature that follows its number of generic parameters,
from the place of the header. -/
theorem pinpoints_methodTypes {header : Header} {genericArity : UInt32} {head : List UInt8}
    (hhead : origin.Passes head cursor)
    (hcounted : ∀ count counted, IntegerForm count counted →
      MethodHead header genericArity count (head ++ counted))
    (hfails : (methodTypes (typeWithin Builder.tree levels) header genericArity).Fails
      cursor error after) :
    Pinpoints (TypeFault (MethodOpens levels)) origin error after := by
  have hinner := recognizes_typeWithin levels
  rcases fails_bind_iff.mp hfails with hcount | ⟨count, afterCount, hcount, hrest⟩
  · exact (pinpoints_unsigned hcount).read hhead
  obtain ⟨counted, hcountForm, hpassesCount⟩ := (recognizes_unsigned _ _ _).mp hcount
  have hopening := hcounted _ _ hcountForm
  have hpassesHead := hhead.trans hpassesCount
  rcases fails_bind_iff.mp hrest with hreturn | ⟨returnType, afterReturn, hreturn, hrest⟩
  · apply (htypes hreturn).inside hpassesHead
    intro passed hpassed
    rw [← List.append_nil (head ++ counted)]
    exact .mk (.mk hopening .nil (Nat.zero_le _)) hpassed
  -- The return type counts as the first of the types that stand before the failure.
  obtain ⟨returned, ⟨hreturned, -⟩, hpassesReturned⟩ := (hinner _ _ _).mp hreturn
  rcases fails_bind_iff.mp hrest with hlisted | ⟨_, _, _, hpure⟩
  · obtain ⟨parameters, listed, place, hlength, hsequence, hpassesListed, hparameter⟩ :=
      fails_times (recognizes_parameter hinner startsTypes_encodes) hlisted
    have hsequence := Sequence.cons hreturned (sequence_and_iff.mp hsequence).1
    apply (pinpoints_parameter htypes hparameter).inside
      (hpassesHead.trans (hpassesReturned.trans hpassesListed))
    intro passed hpassed
    exact .mk (.mk hopening hsequence hlength) hpassed
  · exact absurd hpure not_fails_pure

theorem pinpoints_method
    (hfails : (method (typeWithin Builder.tree levels)).Fails cursor error after) :
    Pinpoints (HeadedFault .method (MethodOpens levels)) cursor error after := by
  rw [method_eq] at hfails
  have hmethod (hpinpoints : Pinpoints (TypeFault (MethodOpens levels)) cursor error after) :
      Pinpoints (HeadedFault .method (MethodOpens levels)) cursor error after :=
    hpinpoints.widen (.refl cursor) fun _ _ _ hfault => .types hfault
  rcases fails_bind_iff.mp hfails with hheader | ⟨header, afterHeader, hheader, hfails⟩
  · rcases pinpoints_header hheader with hread | ⟨header, hkind, hpasses, rfl⟩
    · exact hmethod (hread.read (.refl cursor))
    · exact Pinpoints.here hpasses rfl (.header hkind)
  obtain ⟨_, ⟨hkind, rfl⟩, hpassesHeader⟩ := (recognizes_header _ _ _ _).mp hheader
  by_cases hgeneric : header.isGeneric
  · rw [if_pos hgeneric] at hfails
    rcases fails_bind_iff.mp hfails with harity | ⟨arity, afterArity, harity, hfails⟩
    · exact hmethod ((pinpoints_unsigned harity).read hpassesHeader)
    obtain ⟨arityBytes, harityForm, hpassesArity⟩ := (recognizes_unsigned _ _ _).mp harity
    apply hmethod
    apply pinpoints_methodTypes htypes (hpassesHeader.trans hpassesArity) ?_ hfails
    intro count counted hcounted
    exact .generic hkind hgeneric harityForm hcounted
  · rw [if_neg hgeneric] at hfails
    apply hmethod
    apply pinpoints_methodTypes htypes hpassesHeader ?_ hfails
    intro count counted hcounted
    exact .plain hkind (Bool.not_eq_true _ ▸ hgeneric) hcounted

theorem pinpoints_genericInstance {start : Nat}
    (hlead : origin.Passes [ElementType.genericInstance.code] cursor)
    (hfails : (composite Builder.tree (typeWithin Builder.tree levels) start
      .genericInstance).Fails cursor error after) :
    Pinpoints (TypeFault (Opens (levels + 1))) origin error after := by
  have hinner := recognizes_typeWithin levels
  rw [composite] at hfails
  rw [fails_offset_iff] at hfails
  rcases fails_bind_iff.mp hfails with hform | ⟨form, afterForm, hform, hfails⟩
  · exact (pinpoints_namedForm hlead hform).read (.refl origin)
  obtain ⟨_, rfl, hpassesForm⟩ := (recognizes_namedForm _ _ _).mp hform
  have hpassesForm := hlead.trans hpassesForm
  rcases fails_bind_iff.mp hfails with hgeneric | ⟨generic, afterName, hgeneric, hfails⟩
  · exact (pinpoints_named hgeneric).read hpassesForm
  obtain ⟨name, ⟨production, rfl, hname⟩, hpassesName⟩ :=
    (recognizes_named _ _ _ _ _).mp hgeneric
  have hpassesName := hpassesForm.trans hpassesName
  rcases fails_bind_iff.mp hfails with hcount | ⟨count, afterCount, hcount, hfails⟩
  · exact (pinpoints_unsigned hcount).read hpassesName
  obtain ⟨counted, hcountForm, hpassesCount⟩ := (recognizes_unsigned _ _ _).mp hcount
  rcases fails_bind_iff.mp hfails with hlisted | ⟨_, _, _, hcall⟩
  · obtain ⟨arguments, listed, place, hlength, hsequence, hpassesListed, hargument⟩ :=
      fails_times hinner hlisted
    have hopening := TypeOpening.argument hname hcountForm (sequence_and_iff.mp hsequence).1
      hlength
    have hpasses := hpassesName.trans (hpassesCount.trans hpassesListed)
    apply (htypes hargument).inside hpasses
    intro passed hpassed
    exact .more hopening hpassed
  · exact absurd hcall not_fails_call

/-- A part that stands right behind the lead byte of a production. -/
theorem pinpoints_element {element : ElementType} {start : Nat}
    {wrap : TypeTree → Production TypeTree}
    (helement : element ∈ [.pointer, .vector, .byReference, .pinned, .array])
    (hlead : origin.Passes [element.code] cursor)
    (hfails : (typeWithin Builder.tree levels >>= fun part =>
      call Builder.tree start (wrap part)).Fails cursor error after) :
    Pinpoints (TypeFault (Opens (levels + 1))) origin error after := by
  rcases fails_bind_iff.mp hfails with hpart | ⟨_, _, _, hcall⟩
  · apply (htypes hpart).inside hlead
    intro passed hpassed
    exact .more (.element helement) hpassed
  · exact absurd hcall not_fails_call

theorem pinpoints_modified {element : ElementType} {start : Nat} {isRequired : Bool}
    (helement : element ∈ [.requiredModifier, .optionalModifier])
    (hlead : origin.Passes [element.code] cursor)
    (hfails : (modified Builder.tree (typeWithin Builder.tree levels) start
      isRequired).Fails cursor error after) :
    Pinpoints (TypeFault (Opens (levels + 1))) origin error after := by
  rw [modified] at hfails
  rw [fails_offset_iff] at hfails
  rcases fails_bind_iff.mp hfails with hmodifier | ⟨modifier, afterName, hmodifier, hfails⟩
  · exact (pinpoints_named hmodifier).read hlead
  obtain ⟨name, ⟨production, rfl, hname⟩, hpassesName⟩ :=
    (recognizes_named _ _ _ _ _).mp hmodifier
  rcases fails_bind_iff.mp hfails with hunmodified | ⟨_, _, _, hcall⟩
  · apply (htypes hunmodified).inside (hlead.trans hpassesName)
    intro passed hpassed
    exact .more (.unmodified helement hname) hpassed
  · exact absurd hcall not_fails_call

/-- What follows an element type, from the place of that element type. -/
theorem pinpoints_composite {element : ElementType}
    (hlead : origin.Passes [element.code] cursor)
    (hfails : (composite Builder.tree (typeWithin Builder.tree levels) origin.offset
      element).Fails cursor error after) :
    Pinpoints (TypeFault (Opens (levels + 1))) origin error after := by
  cases element with
  | pointer => exact pinpoints_element htypes (by simp) hlead hfails
  | vector => exact pinpoints_element htypes (by simp) hlead hfails
  | byReference => exact pinpoints_element htypes (by simp) hlead hfails
  | pinned => exact pinpoints_element htypes (by simp) hlead hfails
  | array =>
      rcases fails_bind_iff.mp hfails with helement | ⟨element, middle, helement, hfails⟩
      · apply (htypes helement).inside hlead
        intro passed hpassed
        exact .more (.element (by simp)) hpassed
      obtain ⟨bytes, -, hpasses⟩ := (recognizes_typeWithin levels _ _ _).mp helement
      rcases fails_bind_iff.mp hfails with hdimensions | ⟨_, _, _, hcall⟩
      · exact (pinpoints_dimensions hdimensions).read (hlead.trans hpasses)
      · exact absurd hcall not_fails_call
  | classType => exact (pinpoints_named hfails).read hlead
  | valueType => exact (pinpoints_named hfails).read hlead
  | typeVariable =>
      rcases fails_bind_iff.mp hfails with hindex | ⟨_, _, _, hcall⟩
      · exact (pinpoints_unsigned hindex).read hlead
      · exact absurd hcall not_fails_call
  | methodVariable =>
      rcases fails_bind_iff.mp hfails with hindex | ⟨_, _, _, hcall⟩
      · exact (pinpoints_unsigned hindex).read hlead
      · exact absurd hcall not_fails_call
  | genericInstance => exact pinpoints_genericInstance htypes hlead hfails
  | functionPointer =>
      rcases fails_bind_iff.mp hfails with hmethod | ⟨_, _, _, hcall⟩
      · apply (pinpoints_method htypes hmethod).widen hlead
        intro passed bytes rest hfault
        cases hfault with
        | header hkind =>
            change TypeFault _ ([] ++ [ElementType.functionPointer.code]) _ _ _
            exact .unexpectedHeader hkind
        | types hfault =>
            apply hfault.prepend
            intro passed hpassed
            obtain ⟨hopening, hopens⟩ := hpassed
            have hmore := Opens.more (.method hopening) hopens
            exact hmore
      · exact absurd hcall not_fails_call
  | requiredModifier => exact pinpoints_modified htypes (by simp) hlead hfails
  | optionalModifier => exact pinpoints_modified htypes (by simp) hlead hfails
  | typedReference =>
      obtain ⟨rfl, rfl⟩ := fails_unsupported_iff.mp hfails
      exact Pinpoints.here hlead rfl .typedReference
  | sentinel =>
      obtain ⟨rfl, rfl⟩ := fails_malformedAt_iff.mp hfails
      exact Pinpoints.here hlead rfl (.unknownElementType startsNone_sentinel)

end

/-- Failures of the builder of trees describe the bytes at their offset. -/
theorem pinpoints_typeWithin {levels : Nat}
    (hfails : (typeWithin Builder.tree levels).Fails cursor error after) :
    Pinpoints (TypeFault (Opens levels)) cursor error after := by
  induction levels generalizing cursor error after with
  | zero =>
      -- Without a level left, the type that starts here is itself too deep.
      obtain ⟨hresult, rfl⟩ := hfails
      obtain rfl := Except.error.inj hresult
      exact Pinpoints.here (.refl cursor) rfl (.nestingTooDeep .none)
  | succ levels ih =>
      rw [typeWithin, production] at hfails
      rw [fails_offset_iff] at hfails
      rcases fails_bind_iff.mp hfails with hbyte | ⟨lead, middle, hbyte, hfails⟩
      · exact (pinpoints_byte hbyte).read (.refl cursor)
      have hlead := yields_byte_iff.mp hbyte
      cases hprimitive : Primitive.ofCode? lead with
      | some code =>
          simp only [hprimitive] at hfails
          exact absurd hfails not_fails_call
      | none =>
          cases helement : ElementType.ofCode? lead with
          | none =>
              simp only [hprimitive, helement, fails_malformedAt_iff] at hfails
              obtain ⟨rfl, rfl⟩ := hfails
              have hstarts := startsNone_of_ofCode? hprimitive helement
              exact Pinpoints.here hlead rfl (.unknownElementType hstarts)
          | some element =>
              simp only [hprimitive, helement] at hfails
              obtain rfl := ElementType.ofCode?_eq_some_iff.mp helement
              exact pinpoints_composite ih hlead hfails

theorem pinpoints_field
    (hfails : (do
      let _ ← Read.header .field
      typeWithin Builder.tree maxNesting : Decode TypeTree TypeTree).Fails cursor error after) :
    Pinpoints (HeadedFault .field (FieldOpens maxNesting)) cursor error after := by
  rcases fails_bind_iff.mp hfails with hheader | ⟨header, middle, hheader, hfails⟩
  · rcases pinpoints_header hheader with hread | ⟨header, hkind, hpasses, rfl⟩
    · exact (hread.read (.refl cursor)).widen (.refl cursor) fun _ _ _ => .types
    · exact Pinpoints.here hpasses rfl (.header hkind)
  obtain ⟨_, ⟨hkind, rfl⟩, hpasses⟩ := (recognizes_header _ _ _ _).mp hheader
  have htype := (pinpoints_typeWithin hfails).inside hpasses fun passed => FieldOpens.mk hkind
  exact htype.widen (.refl cursor) fun _ _ _ => .types

/-! ## Steps -/

section

variable {body : Decode TypeTree α} {language : α → List UInt8 → Prop}

theorem pinpoints_whole {builder : Builder τ} {signature : Entry}
    (hbody : body.Recognizes language)
    (hform : ∀ value bytes, language value bytes → SignatureForm signature bytes)
    (hfault : ∀ {cursor error after}, body.Fails cursor error after →
      Pinpoints (StepFault builder (.decode signature)) cursor error after)
    (hfails : (do
      let value ← body
      Read.finish
      return value : Decode TypeTree α).Fails cursor error after) :
    Pinpoints (StepFault builder (.decode signature)) cursor error after := by
  rcases fails_bind_iff.mp hfails with hbodyFails | ⟨value, middle, hvalue, hfails⟩
  · exact hfault hbodyFails
  rcases fails_bind_iff.mp hfails with hfinish | ⟨_, _, _, hpure⟩
  · obtain ⟨bytes, hbytes, hpasses⟩ := (hbody _ _ _).mp hvalue
    obtain ⟨rfl, rfl, hrest⟩ := fails_finish_iff.mp hfinish
    exact ⟨bytes, [], after, hpasses, .refl after, rfl,
      .trailingBytes (hform value bytes hbytes) hrest⟩
  · exact absurd hpure not_fails_pure

end

theorem pinpoints_tree (builder : Builder τ) {signature : Entry}
    (hfails : (entry Builder.tree signature).Fails cursor error after) :
    Pinpoints (StepFault builder (.decode signature)) cursor error after := by
  have htype := recognizes_typeWithin maxNesting
  cases signature with
  | type =>
      rcases fails_bind_iff.mp hfails with hwhole | ⟨_, _, _, hpure⟩
      · apply pinpoints_whole htype ?_ ?_ hwhole
        · rintro tree bytes ⟨hencodes, hnesting⟩
          exact .type hencodes hnesting
        · intro cursor error after hfails
          exact (pinpoints_typeWithin hfails).widen (.refl cursor) fun _ _ _ => .type
      · exact absurd hpure not_fails_pure
  | field =>
      rcases fails_bind_iff.mp hfails with hwhole | ⟨_, _, _, hpure⟩
      · rw [wholeField, wholeType] at hwhole
        rw [← bind_assoc] at hwhole
        apply pinpoints_whole (recognizes_field htype) ?_ ?_ hwhole
        · rintro tree bytes ⟨hkind, hencodes, hnesting⟩
          exact .field (.mk hkind hencodes) hnesting
        · intro cursor error after hfails
          exact (pinpoints_field hfails).widen (.refl cursor) fun _ _ _ => .field
      · exact absurd hpure not_fails_pure
  | method =>
      rcases fails_bind_iff.mp hfails with hwhole | ⟨_, _, _, hpure⟩
      · apply pinpoints_whole (recognizes_method htype startsTypes_encodes) ?_ ?_ hwhole
        · intro signature bytes hform
          obtain ⟨hform, hnesting⟩ := methodForm_and_iff.mp hform
          exact .method hform hnesting
        · intro cursor error after hfails
          exact (pinpoints_method pinpoints_typeWithin hfails).widen (.refl cursor)
            fun _ _ _ => .method
      · exact absurd hpure not_fails_pure

variable {builder : Builder τ}

theorem pinpoints_entry (hhonest : builder.Honest) {signature : Entry}
    (hfails : (entry builder signature).Fails cursor error after) :
    Pinpoints (StepFault builder (.decode signature)) cursor error after := by
  have htracks := tracks_entry hhonest.interprets signature cursor
  obtain ⟨hresult, rfl⟩ := hfails
  generalize (entry builder signature).run cursor = run at htracks hresult
  cases htracks with
  | agrees hcalls =>
      -- The error is that of the builder of trees, at the same place.
      apply pinpoints_tree builder
      exact ⟨Run.result_eq_error_of_map hresult, rfl⟩
  | declines hcalls hbefore hdeclined hspans =>
      obtain rfl := Except.error.inj hresult
      cases hspans with
      | type hpassed hbytes hencodes =>
          exact ⟨_, _, _, hpassed, hbytes, rfl, .declined hdeclined hencodes⟩
      | modifier hpassed hbytes hmark hform =>
          exact ⟨_, _, _, hpassed, hbytes, rfl, .declinedModifier hdeclined hmark hform⟩

theorem pinpoints_step (hhonest : builder.Honest) {next : Step}
    (hfails : (step builder next).Fails cursor error after) :
    Pinpoints (StepFault builder next) cursor error after := by
  cases next with
  | decode signature => exact pinpoints_entry hhonest hfails
  | finish =>
      rcases fails_bind_iff.mp hfails with hfinish | ⟨_, _, _, hpure⟩
      · obtain ⟨rfl, rfl, hrest⟩ := fails_finish_iff.mp hfinish
        exact Pinpoints.here (.refl after) rfl (.unfinished hrest)
      · exact absurd hpure not_fails_pure

end Decode

/-- Every error is about the bytes at its offset.  Steps are taken on a blob one after
another, whatever became of the ones before.  If one of them fails, then the blob
consists of what the earlier steps passed, of what this step passed before the offset
of the error, of the bytes from there to the place where it stopped, and of the rest;
and the error describes these bytes. -/
theorem steps_fault {builder : Builder τ} (hhonest : builder.Honest) {blob : List UInt8}
    {script : List Step} {earlier later : List (Run τ (Answer τ))}
    {run : Run τ (Answer τ)}
    (hruns : Decode.steps builder (.start blob) script = earlier ++ run :: later)
    (herror : run.result = .error error) :
    let before := Decode.reached (.start blob) earlier
    (before.offset ≤ error.offset ∧ error.offset ≤ run.cursor.offset) ∧
    ∃ step consumed passed bytes,
      script[earlier.length]? = some step ∧
      blob = consumed ++ passed ++ bytes ++ run.cursor.rest ∧
      consumed.length = before.offset ∧
      (consumed ++ passed).length = error.offset ∧
      (consumed ++ passed ++ bytes).length = run.cursor.offset ∧
      StepFault builder step passed bytes run.cursor.rest error := by
  intro before
  obtain ⟨step, hstep, rfl⟩ := Decode.step_of_steps hruns
  obtain ⟨consumed, hconsumed⟩ := Decode.passes_steps hruns
  have hpinpoints := Decode.pinpoints_step hhonest ⟨herror, rfl⟩
  obtain ⟨passed, bytes, place, hpassed, hbytes, hoffset, hfault⟩ := hpinpoints
  have hplace := hconsumed.trans hpassed
  have hstop := hplace.trans hbytes
  have hstart : (Cursor.start blob).offset = 0 := rfl
  have hconsumedLength := hconsumed.offset
  have hplaceLength := hplace.offset
  have hstopLength := hstop.offset
  rw [hstart, Nat.zero_add] at hconsumedLength hplaceLength hstopLength
  refine ⟨⟨?_, ?_⟩, step, consumed, passed, bytes, hstep, hstop.rest, hconsumedLength.symm,
    ?_, hstopLength.symm, hfault⟩
  · rw [hoffset]
    exact hpassed.offset_le
  · rw [hoffset]
    exact hbytes.offset_le
  · rw [hoffset]
    exact hplaceLength.symm

/-- A vector is declined, and the step after it meets a byte that no type starts with. -/
theorem steps_fault_plain :
    ∃ passed bytes rest, StepFault Builder.plain (.decode .type) passed bytes rest
      (.malformed 2 (.unknownElementType 0xFF)) := by
  have hhonest : Builder.plain.Honest := by
    intro production construct hdeclined
    exact (Except.error.inj hdeclined).symm
  have hruns : Decode.steps Builder.plain (.start [0x1D, 0x08, 0xFF])
      [.decode .type, .decode .type] =
        [⟨.error (.unsupported 0 .vector), ⟨2, [0xFF]⟩,
          [⟨1, .core (.primitive .int32)⟩, ⟨0, .optional (.vector "Int32")⟩]⟩] ++
        ⟨.error (.malformed 2 (.unknownElementType 0xFF)), ⟨3, []⟩, []⟩ :: [] := by
    rfl
  obtain ⟨-, step, consumed, passed, bytes, hstep, -, -, -, -, hfault⟩ :=
    steps_fault hhonest hruns rfl
  obtain rfl := Option.some.inj hstep
  exact ⟨passed, bytes, _, hfault⟩

end TypeProjection.Signature

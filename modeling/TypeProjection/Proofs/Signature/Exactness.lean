import TypeProjection.Proofs.Signature.Grammar

/-!
# The decoder recognizes the grammar

Every part of the decoder is shown to recognize the form that the grammar gives
for it: it succeeds on the words of the form and on nothing else, with the value
that they are a form of, and it passes over exactly these bytes.  A number of
levels cuts the grammar at the trees that fit into them.
-/

namespace TypeProjection.Signature

open TypeProjection.Metadata

/-! ## Lead bytes -/

theorem Primitive.ofCode?_eq_some_iff {byte : UInt8} {code : Primitive} :
    Primitive.ofCode? byte = some code ↔ byte = code.code := by
  constructor
  · intro hfound
    have hcode := List.find?_some hfound
    exact (of_decide_eq_true hcode).symm
  · rintro rfl
    exact Primitive.ofCode?_code code

theorem ElementType.ofCode?_eq_some_iff {byte : UInt8} {element : ElementType} :
    ElementType.ofCode? byte = some element ↔ byte = element.code := by
  constructor
  · intro hfound
    have hcode := List.find?_some hfound
    exact (of_decide_eq_true hcode).symm
  · rintro rfl
    exact ElementType.ofCode?_code element

/-- No byte is both a primitive type and an element type. -/
theorem Primitive.ofCode?_element (element : ElementType) :
    Primitive.ofCode? element.code = none := by
  cases element <;> rfl

/-! ## Coded indices -/

theorem codedIndex_eq (row : UInt32) {tag : Nat} (htag : tag < 4) :
    codedIndex row tag = 4 * row.toNat + tag := by
  calc
    codedIndex row tag = row.toNat <<< 2 + tag :=
      (Nat.shiftLeft_add_eq_or_of_lt (i := 2) htag row.toNat).symm
    _ = row.toNat * 4 + tag := by rw [Nat.shiftLeft_eq]
    _ = 4 * row.toNat + tag := by rw [Nat.mul_comm]

theorem toNat_row (coded : UInt32) : (coded >>> 2).toNat = coded.toNat / 4 := by
  rw [UInt32.toNat_shiftRight]
  simp [Nat.shiftRight_eq_div_pow]

theorem toNat_tag (coded : UInt32) : (coded &&& 3).toNat = coded.toNat % 4 := by
  rw [UInt32.toNat_and]
  exact Nat.and_two_pow_sub_one_eq_mod coded.toNat 2

/-- The parts of a coded index are its row and its tag. -/
theorem eq_codedIndex_iff {coded row : UInt32} {tag : Nat} (htag : tag < 4) :
    coded.toNat = codedIndex row tag ↔ coded >>> 2 = row ∧ (coded &&& 3).toNat = tag := by
  rw [codedIndex_eq row htag, ← UInt32.toNat_inj, toNat_row, toNat_tag]
  omega

namespace Decode

variable {τ : Type}

/-- What a coded index stands for, by its row and its tag. -/
theorem named?_eq (coded : UInt32) (form : NamedForm) :
    (named? coded form : Option (Production τ)) =
      if maxRow < coded >>> 2 ∨ coded >>> 2 = 0 then none
      else if coded &&& 3 = 0 then some (.core (.definition ⟨coded >>> 2⟩ form))
      else if coded &&& 3 = 1 then some (.core (.reference ⟨coded >>> 2⟩ form))
      else if coded &&& 3 = 2 then some (.optional (.specification ⟨coded >>> 2⟩ form))
      else none := by
  rw [named?, Handle.ofCoded?, Handle.codedKind?]
  by_cases hlarge : maxRow < coded >>> 2
  · rw [if_pos hlarge, if_pos (Or.inl hlarge)]
    rfl
  rw [if_neg hlarge]
  by_cases hnil : coded >>> 2 = 0
  · rw [if_pos (Or.inr hnil)]
    by_cases hdefinition : coded &&& 3 = 0
    · simp [hdefinition, hnil, Handle.isNil]
    by_cases hreference : coded &&& 3 = 1
    · simp [hreference, hnil, Handle.isNil]
    by_cases hspecification : coded &&& 3 = 2
    · simp [hspecification, hnil, Handle.isNil]
    · simp [hdefinition, hreference, hspecification]
  · rw [if_neg (not_or.mpr ⟨hlarge, hnil⟩)]
    by_cases hdefinition : coded &&& 3 = 0
    · simp [hdefinition, hnil, Handle.isNil]
    by_cases hreference : coded &&& 3 = 1
    · simp [hreference, hnil, Handle.isNil]
    by_cases hspecification : coded &&& 3 = 2
    · simp [hspecification, hnil, Handle.isNil]
    · simp [hdefinition, hreference, hspecification]

theorem one_le_of_ne_zero {row : UInt32} (hrow : row ≠ 0) : 1 ≤ row := by
  rw [UInt32.le_iff_toNat_le]
  have hnil : row.toNat ≠ 0 := fun hzero => hrow (UInt32.toNat_inj.mp hzero)
  exact Nat.one_le_iff_ne_zero.mpr hnil

theorem codedName_of_named? {coded : UInt32} {form : NamedForm} {production : Production τ}
    (hnamed : named? coded form = some production) :
    CodedName form production coded.toNat := by
  rw [named?_eq] at hnamed
  by_cases hrow : maxRow < coded >>> 2 ∨ coded >>> 2 = 0
  · rw [if_pos hrow] at hnamed
    cases hnamed
  rw [if_neg hrow] at hnamed
  obtain ⟨hlarge, hnil⟩ := not_or.mp hrow
  have hlow := one_le_of_ne_zero hnil
  have hhigh := UInt32.not_lt.mp hlarge
  by_cases hdefinition : coded &&& 3 = 0
  · rw [if_pos hdefinition] at hnamed
    cases hnamed
    rw [(eq_codedIndex_iff (by decide)).mpr ⟨rfl, congrArg UInt32.toNat hdefinition⟩]
    exact .definition hlow hhigh
  rw [if_neg hdefinition] at hnamed
  by_cases hreference : coded &&& 3 = 1
  · rw [if_pos hreference] at hnamed
    cases hnamed
    rw [(eq_codedIndex_iff (by decide)).mpr ⟨rfl, congrArg UInt32.toNat hreference⟩]
    exact .reference hlow hhigh
  rw [if_neg hreference] at hnamed
  by_cases hspecification : coded &&& 3 = 2
  · rw [if_pos hspecification] at hnamed
    cases hnamed
    rw [(eq_codedIndex_iff (by decide)).mpr ⟨rfl, congrArg UInt32.toNat hspecification⟩]
    exact .specification hlow hhigh
  · rw [if_neg hspecification] at hnamed
    cases hnamed

theorem named?_of_codedName {coded : UInt32} {form : NamedForm} {production : Production τ}
    {index : Nat} (hname : CodedName form production index) (hindex : coded.toNat = index) :
    named? coded form = some production := by
  have hvalid {row : UInt32} (hlow : 1 ≤ row) (hhigh : row ≤ maxRow) :
      ¬ (maxRow < row ∨ row = 0) := by
    rintro (hlarge | rfl)
    · exact UInt32.not_lt.mpr hhigh hlarge
    · exact absurd hlow (by decide)
  rw [named?_eq]
  cases hname with
  | definition hlow hhigh =>
      obtain ⟨hrow, htag⟩ := (eq_codedIndex_iff (by decide)).mp hindex
      have htag : coded &&& 3 = 0 := UInt32.toNat_inj.mp htag
      rw [hrow, htag, if_neg (hvalid hlow hhigh)]
      rfl
  | reference hlow hhigh =>
      obtain ⟨hrow, htag⟩ := (eq_codedIndex_iff (by decide)).mp hindex
      have htag : coded &&& 3 = 1 := UInt32.toNat_inj.mp htag
      rw [hrow, htag, if_neg (hvalid hlow hhigh)]
      rfl
  | specification hlow hhigh =>
      obtain ⟨hrow, htag⟩ := (eq_codedIndex_iff (by decide)).mp hindex
      have htag : coded &&& 3 = 2 := UInt32.toNat_inj.mp htag
      rw [hrow, htag, if_neg (hvalid hlow hhigh)]
      rfl

/-- A coded index is accepted exactly where it names a type. -/
theorem named?_eq_some_iff {coded : UInt32} {form : NamedForm}
    {production : Production τ} :
    named? coded form = some production ↔ CodedName form production coded.toNat :=
  ⟨codedName_of_named?, fun hname => named?_of_codedName hname rfl⟩

/-- A coded index is refused for its tag or for its row. -/
theorem named?_eq_none_iff {coded : UInt32} {form : NamedForm} :
    (named? coded form : Option (Production τ)) = none ↔
      coded &&& 3 = 3 ∨ coded >>> 2 = 0 ∨ maxRow < coded >>> 2 := by
  have htag : coded &&& 3 = 0 ∨ coded &&& 3 = 1 ∨ coded &&& 3 = 2 ∨ coded &&& 3 = 3 := by
    simp only [← UInt32.toNat_inj, toNat_tag]
    change _ = 0 ∨ _ = 1 ∨ _ = 2 ∨ _ = 3
    omega
  rw [named?_eq]
  by_cases hrow : maxRow < coded >>> 2 ∨ coded >>> 2 = 0
  · rw [if_pos hrow]
    exact ⟨fun _ => .inr hrow.symm, fun _ => rfl⟩
  · rw [if_neg hrow]
    obtain ⟨hlarge, hnil⟩ := not_or.mp hrow
    have hlarge := UInt32.not_lt.mp hlarge
    rcases htag with htag | htag | htag | htag
    · simp [htag, hnil, hlarge]
    · simp [htag, hnil, hlarge]
    · simp [htag, hnil, hlarge]
    · simp [htag]

/-! ## Headers and dimensions -/

theorem recognizes_header (kind : HeaderKind) :
    (liftM (Read.header kind) : Decode τ Header).Recognizes fun header bytes =>
      header.kind? = some kind ∧ bytes = [header.raw] := by
  intro cursor header after
  simp only [Read.header, liftM_bind, yields_offset_iff]
  constructor
  · intro hyields
    obtain ⟨byte, middle, hbyte, hyields⟩ := yields_bind_iff.mp hyields
    by_cases hkind : (Header.mk byte).kind? = some kind
    · rw [if_pos hkind, liftM_pure] at hyields
      obtain ⟨rfl, rfl⟩ := yields_pure_iff.mp hyields
      exact ⟨[byte], ⟨hkind, rfl⟩, yields_byte_iff.mp hbyte⟩
    · rw [if_neg hkind] at hyields
      simp at hyields
  · rintro ⟨bytes, ⟨hkind, rfl⟩, hpasses⟩
    refine (yields_byte_iff.mpr hpasses).bind ?_
    rw [if_pos hkind, liftM_pure]
    exact yields_pure_iff.mpr ⟨rfl, rfl⟩

/-- A count that fits into a compressed integer is a word. -/
theorem exists_unsignedForm {number : Nat} {bytes : List UInt8}
    (hform : IntegerForm number bytes) :
    ∃ count : UInt32, count.toNat = number ∧ UnsignedForm count bytes := by
  obtain ⟨width, hnumber, hbytes⟩ := hform
  have hcapacity := width.capacity_le
  have hcount : (UInt32.ofNat number).toNat = number := by
    rw [UInt32.toNat_ofNat']
    omega
  refine ⟨UInt32.ofNat number, hcount, width, ?_, ?_⟩
  · rw [hcount]
    exact hnumber
  · rw [hcount]
    exact hbytes

theorem recognizes_countedUpTo {α : Type} {item : Read α} {language : α → List UInt8 → Prop}
    (hitem : (liftM item : Decode τ α).Recognizes language) (limit : UInt32) (start : Nat) :
    (liftM (Read.countedUpTo limit start item) : Decode τ (List α)).Recognizes
      fun values bytes => values.length ≤ limit.toNat ∧ CountedForm language values bytes := by
  intro cursor values after
  simp only [Read.countedUpTo, liftM_bind]
  constructor
  · intro hyields
    obtain ⟨count, middle, hcount, hyields⟩ := yields_bind_iff.mp hyields
    obtain ⟨countBytes, hcountForm, hpassesCount⟩ := (recognizes_unsigned _ _ _).mp hcount
    by_cases hlimit : limit < count
    · rw [if_pos hlimit] at hyields
      simp at hyields
    · rw [if_neg hlimit, liftM_times] at hyields
      obtain ⟨bytes, ⟨hlength, hsequence⟩, hpasses⟩ := (hitem.times _ _ _ _).mp hyields
      rw [UInt32.not_lt, UInt32.le_iff_toNat_le, ← hlength] at hlimit
      refine ⟨countBytes ++ bytes, ⟨hlimit, .mk ?_ hsequence⟩, hpassesCount.trans hpasses⟩
      rw [hlength]
      exact hcountForm
  · rintro ⟨bytes, ⟨hlimit, hcounted⟩, hpasses⟩
    obtain ⟨hcountForm, hsequence⟩ := hcounted
    obtain ⟨count, hcount, hcountForm⟩ := exists_unsignedForm hcountForm
    obtain ⟨middle, hpassesCount, hpasses⟩ := Cursor.passes_append_iff.mp hpasses
    refine ((recognizes_unsigned _ _ _).mpr ⟨_, hcountForm, hpassesCount⟩).bind ?_
    have hadmissible : ¬ limit < count := by
      rw [UInt32.not_lt, UInt32.le_iff_toNat_le, hcount]
      exact hlimit
    rw [if_neg hadmissible, liftM_times]
    exact (hitem.times _ _ _ _).mpr ⟨_, ⟨hcount.symm, hsequence⟩, hpasses⟩

theorem recognizes_dimensions :
    (liftM Read.dimensions : Decode τ Dimensions).Recognizes DimensionsForm := by
  intro cursor dimensions after
  simp only [Read.dimensions, liftM_bind, yields_offset_iff]
  constructor
  · intro hyields
    obtain ⟨rank, afterRank, hrank, hyields⟩ := yields_bind_iff.mp hyields
    obtain ⟨rankBytes, hrankForm, hpassesRank⟩ := (recognizes_unsigned _ _ _).mp hrank
    by_cases hzero : rank = 0
    · rw [if_pos hzero] at hyields
      simp at hyields
    rw [if_neg hzero] at hyields
    simp only [liftM_bind, liftM_pure] at hyields
    obtain ⟨sizes, afterSizes, hsizes, hyields⟩ := yields_bind_iff.mp hyields
    obtain ⟨lowerBounds, afterBounds, hbounds, hyields⟩ := yields_bind_iff.mp hyields
    obtain ⟨rfl, rfl⟩ := yields_pure_iff.mp hyields
    obtain ⟨sizeBytes, ⟨hsizesLimit, hsizesForm⟩, hpassesSizes⟩ :=
      (recognizes_countedUpTo recognizes_unsigned _ _ _ _ _).mp hsizes
    obtain ⟨boundBytes, ⟨hboundsLimit, hboundsForm⟩, hpassesBounds⟩ :=
      (recognizes_countedUpTo recognizes_signed _ _ _ _ _).mp hbounds
    exact ⟨_, .mk (one_le_of_ne_zero hzero) hsizesLimit hboundsLimit hrankForm hsizesForm
      hboundsForm, hpassesRank.trans (hpassesSizes.trans hpassesBounds)⟩
  · rintro ⟨bytes, hform, hpasses⟩
    obtain ⟨hpositive, hsizesLimit, hboundsLimit, hrankForm, hsizesForm, hboundsForm⟩ := hform
    obtain ⟨afterRank, hpassesRank, hpasses⟩ := Cursor.passes_append_iff.mp hpasses
    obtain ⟨afterSizes, hpassesSizes, hpassesBounds⟩ := Cursor.passes_append_iff.mp hpasses
    refine ((recognizes_unsigned _ _ _).mpr ⟨_, hrankForm, hpassesRank⟩).bind ?_
    have hzero : dimensions.rank ≠ 0 := by
      intro hrank
      rw [hrank] at hpositive
      exact absurd hpositive (by decide)
    rw [if_neg hzero]
    simp only [liftM_bind, liftM_pure]
    have hsizes := (recognizes_countedUpTo (τ := τ) recognizes_unsigned dimensions.rank
      cursor.offset _ _ _).mpr ⟨_, ⟨hsizesLimit, hsizesForm⟩, hpassesSizes⟩
    have hbounds := (recognizes_countedUpTo (τ := τ) recognizes_signed dimensions.rank
      cursor.offset _ _ _).mpr ⟨_, ⟨hboundsLimit, hboundsForm⟩, hpassesBounds⟩
    exact hsizes.bind (hbounds.bind (yields_pure_iff.mpr ⟨rfl, rfl⟩))

/-! ## Named types -/

theorem recognizes_namedForm :
    (namedForm : Decode τ NamedForm).Recognizes fun form bytes =>
      bytes = [form.element.code] := by
  intro cursor form after
  simp only [namedForm, liftM_bind, yields_offset_iff]
  constructor
  · intro hyields
    obtain ⟨byte, middle, hbyte, hyields⟩ := yields_bind_iff.mp hyields
    have hpasses := yields_byte_iff.mp hbyte
    split at hyields
    next hfound =>
      obtain ⟨rfl, rfl⟩ := yields_pure_iff.mp hyields
      obtain rfl := ElementType.ofCode?_eq_some_iff.mp hfound
      exact ⟨_, rfl, hpasses⟩
    next hfound =>
      obtain ⟨rfl, rfl⟩ := yields_pure_iff.mp hyields
      obtain rfl := ElementType.ofCode?_eq_some_iff.mp hfound
      exact ⟨_, rfl, hpasses⟩
    next => simp at hyields
  · rintro ⟨bytes, rfl, hpasses⟩
    refine (yields_byte_iff.mpr hpasses).bind ?_
    rw [ElementType.ofCode?_code]
    cases form <;> exact yields_pure_iff.mpr ⟨rfl, rfl⟩

/-- What a builder makes of a named type is recognized by its name. -/
theorem recognizes_namedBy (builder : Builder τ) (form : NamedForm) (start : Nat) :
    (named builder form start).Recognizes fun value bytes =>
      ∃ production, builder.build production = .ok value ∧
        HandleForm form production bytes := by
  intro cursor value after
  rw [named]
  rw [yields_offset_iff]
  constructor
  · intro hyields
    obtain ⟨coded, middle, hcoded, hyields⟩ := yields_bind_iff.mp hyields
    obtain ⟨bytes, hform, hpasses⟩ := (recognizes_unsigned _ _ _).mp hcoded
    cases hnamed : (named? coded form : Option (Production τ)) with
    | none => simp [hnamed] at hyields
    | some production =>
        simp only [hnamed, yields_call_iff] at hyields
        obtain ⟨hbuild, rfl⟩ := hyields
        exact ⟨bytes, ⟨production, hbuild, _, named?_eq_some_iff.mp hnamed, hform⟩, hpasses⟩
  · rintro ⟨bytes, ⟨production, hbuild, index, hname, hform⟩, hpasses⟩
    obtain ⟨coded, rfl, hcoded⟩ := exists_unsignedForm hform
    refine ((recognizes_unsigned _ _ _).mpr ⟨_, hcoded, hpasses⟩).bind ?_
    rw [named?_eq_some_iff.mpr hname]
    exact yields_call_iff.mpr ⟨hbuild, rfl⟩

/-- The trees of named types are recognized by their names. -/
theorem recognizes_named (form : NamedForm) (start : Nat) :
    (named Builder.tree form start).Recognizes fun tree bytes =>
      ∃ production, tree = .node production ∧ HandleForm form production bytes := by
  refine (recognizes_namedBy Builder.tree form start).congr fun tree bytes => ?_
  simp only [Builder.build_tree, Except.ok.injEq, eq_comm]

/-! ## Types -/

/-- A production is a primitive type, or an element type and what follows it. -/
theorem yields_production_iff {builder : Builder τ} {inner : Decode τ τ}
    {cursor after : Cursor} {value : τ} :
    (production builder inner).Yields cursor value after ↔
      (∃ code, builder.build (.core (.primitive code)) = .ok value ∧
        cursor.Passes [code.code] after) ∨
      ∃ element middle, cursor.Passes [element.code] middle ∧
        (composite builder inner cursor.offset element).Yields middle value after := by
  rw [production]
  rw [yields_offset_iff]
  constructor
  · intro hyields
    obtain ⟨lead, middle, hlead, hyields⟩ := yields_bind_iff.mp hyields
    have hpasses := yields_byte_iff.mp hlead
    split at hyields
    next code hcode =>
      obtain ⟨hbuild, rfl⟩ := yields_call_iff.mp hyields
      obtain rfl := Primitive.ofCode?_eq_some_iff.mp hcode
      exact .inl ⟨code, hbuild, hpasses⟩
    next =>
      split at hyields
      next element helement =>
        obtain rfl := ElementType.ofCode?_eq_some_iff.mp helement
        exact .inr ⟨element, middle, hpasses, hyields⟩
      next => simp at hyields
  · rintro (⟨code, hbuild, hpasses⟩ | ⟨element, middle, hpasses, hyields⟩)
    · refine (yields_byte_iff.mpr hpasses).bind ?_
      rw [Primitive.ofCode?_code]
      exact yields_call_iff.mpr ⟨hbuild, rfl⟩
    · refine (yields_byte_iff.mpr hpasses).bind ?_
      rw [Primitive.ofCode?_element, ElementType.ofCode?_code]
      exact hyields

section

variable {inner : Decode TypeTree TypeTree} {item : TypeTree → List UInt8 → Prop}

/-- No type is empty or starts with the mark before variable arguments. -/
def StartsTypes (item : TypeTree → List UInt8 → Prop) : Prop :=
  ∀ tree bytes, item tree bytes →
    ∃ lead rest, bytes = lead :: rest ∧ lead ≠ ElementType.sentinel.code

theorem recognizes_parameter (hinner : inner.Recognizes item) (hitem : StartsTypes item) :
    (parameter inner).Recognizes item := by
  intro cursor tree after
  rw [parameter]
  constructor
  · intro hparameter
    obtain ⟨next, middle, hpeek, hyields⟩ := yields_bind_iff.mp hparameter
    obtain ⟨hmiddle, -⟩ := yields_peek_iff.mp hpeek
    rw [hmiddle] at hyields
    by_cases hsentinel : next = ElementType.sentinel.code
    · rw [if_pos hsentinel, yields_offset_iff] at hyields
      simp at hyields
    · rw [if_neg hsentinel] at hyields
      exact (hinner _ _ _).mp hyields
  · rintro ⟨bytes, hbytes, hpasses⟩
    obtain ⟨lead, rest, rfl, hlead⟩ := hitem _ _ hbytes
    refine (yields_peek_iff.mpr ⟨rfl, _, hpasses.rest⟩).bind ?_
    rw [if_neg hlead]
    exact (hinner _ _ _).mpr ⟨_, hbytes, hpasses⟩

/-- The part of a method signature that follows its number of generic parameters. -/
theorem recognizes_methodTypes (hinner : inner.Recognizes item) (hitem : StartsTypes item)
    (header : Header) (genericArity : UInt32) :
    (methodTypes inner header genericArity).Recognizes fun signature bytes =>
      (signature.header = header ∧ signature.genericArity = genericArity) ∧
        ∃ count returned listed, bytes = count ++ (returned ++ listed) ∧
          IntegerForm signature.parameters.length count ∧
          item signature.returnType returned ∧
          Sequence item signature.parameters listed := by
  intro cursor signature after
  have hparameter := recognizes_parameter hinner hitem
  constructor
  · intro hyields
    obtain ⟨count, afterCount, hcount, hyields⟩ := yields_bind_iff.mp hyields
    obtain ⟨returnType, afterReturn, hreturn, hyields⟩ := yields_bind_iff.mp hyields
    obtain ⟨parameters, afterListed, hlisted, hyields⟩ := yields_bind_iff.mp hyields
    obtain ⟨rfl, rfl⟩ := yields_pure_iff.mp hyields
    obtain ⟨countBytes, hcountForm, hpassesCount⟩ := (recognizes_unsigned _ _ _).mp hcount
    obtain ⟨returned, hreturned, hpassesReturned⟩ := (hinner _ _ _).mp hreturn
    obtain ⟨listed, ⟨hlength, hsequence⟩, hpassesListed⟩ :=
      (hparameter.times _ _ _ _).mp hlisted
    refine ⟨_, ⟨⟨rfl, rfl⟩, countBytes, returned, listed, rfl, ?_, hreturned, hsequence⟩,
      hpassesCount.trans (hpassesReturned.trans hpassesListed)⟩
    rw [hlength]
    exact hcountForm
  · rintro ⟨bytes, ⟨⟨rfl, rfl⟩, countBytes, returned, listed, rfl, hcountForm, hreturned,
      hsequence⟩, hpasses⟩
    obtain ⟨afterCount, hpassesCount, hpasses⟩ := Cursor.passes_append_iff.mp hpasses
    obtain ⟨afterReturn, hpassesReturned, hpassesListed⟩ :=
      Cursor.passes_append_iff.mp hpasses
    obtain ⟨count, hcount, hcountForm⟩ := exists_unsignedForm hcountForm
    have hread := (recognizes_unsigned (τ := TypeTree) _ _ _).mpr
      ⟨_, hcountForm, hpassesCount⟩
    have hreturn := (hinner _ _ _).mpr ⟨_, hreturned, hpassesReturned⟩
    have hlisted := (hparameter.times count.toNat _ _ _).mpr
      ⟨_, ⟨hcount.symm, hsequence⟩, hpassesListed⟩
    exact hread.bind (hreturn.bind (hlisted.bind (yields_pure_iff.mpr ⟨rfl, rfl⟩)))

theorem recognizes_method (hinner : inner.Recognizes item) (hitem : StartsTypes item) :
    (method inner).Recognizes (MethodForm item) := by
  intro cursor signature after
  have htypes := recognizes_methodTypes hinner hitem
  rw [method_eq]
  constructor
  · intro hyields
    obtain ⟨header, afterHeader, hheader, hyields⟩ := yields_bind_iff.mp hyields
    obtain ⟨_, ⟨hkind, rfl⟩, hpassesHeader⟩ := (recognizes_header _ _ _ _).mp hheader
    by_cases hgeneric : header.isGeneric
    · rw [if_pos hgeneric] at hyields
      obtain ⟨arity, afterArity, harity, hyields⟩ := yields_bind_iff.mp hyields
      obtain ⟨arityBytes, harityForm, hpassesArity⟩ :=
        (recognizes_unsigned _ _ _).mp harity
      obtain ⟨_, ⟨⟨rfl, rfl⟩, count, returned, listed, rfl, hcount, hreturned, hlisted⟩,
        hpasses⟩ := (htypes _ _ _ _ _).mp hyields
      have hhead := MethodHead.generic hkind hgeneric harityForm hcount
      refine ⟨_, .mk hhead hreturned hlisted, ?_⟩
      simpa using hpassesHeader.trans (hpassesArity.trans hpasses)
    · rw [if_neg hgeneric] at hyields
      obtain ⟨_, ⟨⟨rfl, harity⟩, count, returned, listed, rfl, hcount, hreturned, hlisted⟩,
        hpasses⟩ := (htypes _ _ _ _ _).mp hyields
      have hhead := MethodHead.plain hkind (Bool.not_eq_true _ ▸ hgeneric) hcount
      rw [← harity] at hhead
      refine ⟨_, .mk hhead hreturned hlisted, ?_⟩
      simpa using hpassesHeader.trans hpasses
  · rintro ⟨bytes, hform, hpasses⟩
    obtain ⟨hhead, hreturned, hlisted⟩ := hform
    obtain ⟨afterHead, hpassesHead, hpassesTypes⟩ := Cursor.passes_append_iff.mp hpasses
    cases hhead with
    | plain hkind hgeneric hcount =>
        obtain ⟨afterHeader, hpassesHeader, hpassesCount⟩ :=
          Cursor.passes_cons_iff.mp hpassesHead
        have hheader := (recognizes_header (τ := TypeTree) _ _ _ _).mpr
          ⟨_, ⟨hkind, rfl⟩, hpassesHeader⟩
        refine hheader.bind ?_
        rw [if_neg (by simp [hgeneric])]
        exact (htypes _ _ _ _ _).mpr ⟨_, ⟨⟨rfl, rfl⟩, _, _, _, rfl, hcount, hreturned, hlisted⟩,
          hpassesCount.trans hpassesTypes⟩
    | generic hkind hgeneric harity hcount =>
        obtain ⟨afterHeader, hpassesHeader, hpassesCounts⟩ :=
          Cursor.passes_cons_iff.mp hpassesHead
        obtain ⟨afterArity, hpassesArity, hpassesCount⟩ :=
          Cursor.passes_append_iff.mp hpassesCounts
        have hheader := (recognizes_header (τ := TypeTree) _ _ _ _).mpr
          ⟨_, ⟨hkind, rfl⟩, hpassesHeader⟩
        refine hheader.bind ?_
        rw [if_pos hgeneric]
        refine ((recognizes_unsigned _ _ _).mpr ⟨_, harity, hpassesArity⟩).bind ?_
        exact (htypes _ _ _ _ _).mpr ⟨_, ⟨⟨rfl, rfl⟩, _, _, _, rfl, hcount, hreturned, hlisted⟩,
          hpassesCount.trans hpassesTypes⟩

/-- What a builder makes of a production over a single part is recognized by the form
of that part. -/
theorem Recognizes.calledBy {α : Type} {part : Decode τ α} {language : α → List UInt8 → Prop}
    (hpart : part.Recognizes language) (builder : Builder τ) (start : Nat)
    (wrap : α → Production τ) :
    (part >>= fun value => call builder start (wrap value)).Recognizes
      fun result bytes =>
        ∃ value, builder.build (wrap value) = .ok result ∧ language value bytes := by
  intro cursor result after
  constructor
  · intro hyields
    obtain ⟨value, middle, hvalue, hyields⟩ := yields_bind_iff.mp hyields
    obtain ⟨hbuild, rfl⟩ := yields_call_iff.mp hyields
    obtain ⟨bytes, hbytes, hpasses⟩ := (hpart _ _ _).mp hvalue
    exact ⟨bytes, ⟨value, hbuild, hbytes⟩, hpasses⟩
  · rintro ⟨bytes, ⟨value, hbuild, hbytes⟩, hpasses⟩
    refine ((hpart _ _ _).mpr ⟨_, hbytes, hpasses⟩).bind ?_
    exact yields_call_iff.mpr ⟨hbuild, rfl⟩

/-- A production over a single part is recognized by the form of that part. -/
theorem Recognizes.called {α : Type} {part : Decode TypeTree α}
    {language : α → List UInt8 → Prop} (hpart : part.Recognizes language) (start : Nat)
    (wrap : α → Production TypeTree) :
    (part >>= fun value => call Builder.tree start (wrap value)).Recognizes
      fun tree bytes => ∃ value, tree = .node (wrap value) ∧ language value bytes := by
  refine (hpart.calledBy Builder.tree start wrap).congr fun tree bytes => ?_
  simp only [Builder.build_tree, Except.ok.injEq, eq_comm]

theorem recognizes_array (hinner : inner.Recognizes item) (start : Nat) :
    (composite Builder.tree inner start .array).Recognizes (CompositeForm item .array) := by
  intro cursor tree after
  rw [composite]
  constructor
  · intro hyields
    obtain ⟨element, middle, helement, hyields⟩ := yields_bind_iff.mp hyields
    obtain ⟨bytes, hbytes, hpasses⟩ := (hinner _ _ _).mp helement
    obtain ⟨shape, ⟨dimensions, rfl, hshape⟩, hpassesShape⟩ :=
      (recognizes_dimensions.called start _ _ _ _).mp hyields
    exact ⟨_, .array hbytes hshape, hpasses.trans hpassesShape⟩
  · rintro ⟨bytes, hform, hpasses⟩
    cases hform with
    | array hbytes hshape =>
        obtain ⟨middle, hpasses, hpassesShape⟩ := Cursor.passes_append_iff.mp hpasses
        refine ((hinner _ _ _).mpr ⟨_, hbytes, hpasses⟩).bind ?_
        exact (recognizes_dimensions.called start _ _ _ _).mpr
          ⟨_, ⟨_, rfl, hshape⟩, hpassesShape⟩

theorem recognizes_genericInstance (hinner : inner.Recognizes item) (start : Nat) :
    (composite Builder.tree inner start .genericInstance).Recognizes
      (CompositeForm item .genericInstance) := by
  intro cursor tree after
  rw [composite]
  rw [yields_offset_iff]
  constructor
  · intro hyields
    obtain ⟨form, afterForm, hform, hyields⟩ := yields_bind_iff.mp hyields
    obtain ⟨generic, afterName, hgeneric, hyields⟩ := yields_bind_iff.mp hyields
    obtain ⟨count, afterCount, hcount, hyields⟩ := yields_bind_iff.mp hyields
    obtain ⟨_, rfl, hpassesForm⟩ := (recognizes_namedForm _ _ _).mp hform
    obtain ⟨name, ⟨production, rfl, hname⟩, hpassesName⟩ :=
      (recognizes_named _ _ _ _ _).mp hgeneric
    obtain ⟨countBytes, hcountForm, hpassesCount⟩ := (recognizes_unsigned _ _ _).mp hcount
    obtain ⟨listed, ⟨arguments, rfl, hlength, hsequence⟩, hpassesListed⟩ :=
      ((hinner.times count.toNat).called start _ _ _ _).mp hyields
    have hcounted : IntegerForm arguments.length countBytes := by
      rw [hlength]
      exact hcountForm
    exact ⟨_, .genericInstance hname hcounted hsequence,
      hpassesForm.trans (hpassesName.trans (hpassesCount.trans hpassesListed))⟩
  · rintro ⟨bytes, hform, hpasses⟩
    cases hform with
    | @genericInstance form _ arguments _ _ _ hname hcountForm hsequence =>
        obtain ⟨afterForm, hpassesForm, hpasses⟩ := Cursor.passes_cons_iff.mp hpasses
        obtain ⟨afterName, hpassesName, hpasses⟩ := Cursor.passes_append_iff.mp hpasses
        obtain ⟨afterCount, hpassesCount, hpassesListed⟩ :=
          Cursor.passes_append_iff.mp hpasses
        obtain ⟨count, hcount, hcountForm⟩ := exists_unsignedForm hcountForm
        refine ((recognizes_namedForm _ _ _).mpr ⟨_, rfl, hpassesForm⟩).bind ?_
        refine ((recognizes_named _ _ _ _ _).mpr ⟨_, ⟨_, rfl, hname⟩, hpassesName⟩).bind ?_
        refine ((recognizes_unsigned _ _ _).mpr ⟨_, hcountForm, hpassesCount⟩).bind ?_
        exact ((hinner.times count.toNat).called start _ _ _ _).mpr
          ⟨_, ⟨_, rfl, hcount.symm, hsequence⟩, hpassesListed⟩

theorem recognizes_modified (hinner : inner.Recognizes item) (start : Nat)
    (isRequired : Bool) :
    (modified Builder.tree inner start isRequired).Recognizes
      (ModifiedForm item isRequired) := by
  intro cursor tree after
  rw [modified]
  rw [yields_offset_iff]
  constructor
  · intro hyields
    obtain ⟨modifier, afterName, hmodifier, hyields⟩ := yields_bind_iff.mp hyields
    obtain ⟨name, ⟨production, rfl, hname⟩, hpassesName⟩ :=
      (recognizes_named _ _ _ _ _).mp hmodifier
    obtain ⟨rest, ⟨unmodified, rfl, hrest⟩, hpassesRest⟩ :=
      (hinner.called start _ _ _ _).mp hyields
    exact ⟨_, ⟨_, _, _, _, rfl, rfl, hname, hrest⟩, hpassesName.trans hpassesRest⟩
  · rintro ⟨_, ⟨modifier, unmodified, name, rest, rfl, rfl, hname, hrest⟩, hpasses⟩
    obtain ⟨middle, hpassesName, hpassesRest⟩ := Cursor.passes_append_iff.mp hpasses
    refine ((recognizes_named _ _ _ _ _).mpr ⟨_, ⟨_, rfl, hname⟩, hpassesName⟩).bind ?_
    exact (hinner.called start _ _ _ _).mpr ⟨_, ⟨_, rfl, hrest⟩, hpassesRest⟩

/-- What follows an element type is recognized by its form. -/
theorem recognizes_composite (hinner : inner.Recognizes item) (hitem : StartsTypes item)
    (start : Nat) (element : ElementType) :
    (composite Builder.tree inner start element).Recognizes
      (CompositeForm item element) := by
  cases element with
  | pointer | vector | byReference | pinned =>
      exact (hinner.called start _).congr fun _ _ =>
        (SinglePart.compositeForm_iff (by constructor)).symm
  | array => exact recognizes_array hinner start
  | classType | valueType =>
      exact (recognizes_named _ start).congr fun _ _ =>
        (SinglePart.compositeForm_iff (by constructor)).symm
  | typeVariable | methodVariable =>
      exact (recognizes_unsigned.called start _).congr fun _ _ =>
        (SinglePart.compositeForm_iff (by constructor)).symm
  | genericInstance => exact recognizes_genericInstance hinner start
  | functionPointer =>
      exact ((recognizes_method hinner hitem).called start _).congr fun _ _ =>
        (SinglePart.compositeForm_iff .functionPointer).symm
  | requiredModifier =>
      exact (recognizes_modified hinner start true).congr fun _ _ =>
        (compositeForm_ofModifier_iff true).symm
  | optionalModifier =>
      exact (recognizes_modified hinner start false).congr fun _ _ =>
        (compositeForm_ofModifier_iff false).symm
  | typedReference =>
      intro cursor tree after
      refine ⟨fun hyields => absurd hyields not_yields_unsupported, ?_⟩
      rintro ⟨bytes, ⟨⟩, -⟩
  | sentinel =>
      intro cursor tree after
      refine ⟨fun hyields => ?_, ?_⟩
      · simp [composite] at hyields
      · rintro ⟨bytes, ⟨⟩, -⟩

/-- One production is recognized by the form of a type over the forms of its parts. -/
theorem recognizes_production (hinner : inner.Recognizes item) (hitem : StartsTypes item) :
    (production Builder.tree inner).Recognizes (TypeForm item) := by
  intro cursor tree after
  rw [yields_production_iff]
  constructor
  · rintro (⟨code, hbuild, hpasses⟩ | ⟨element, middle, hpassesLead, hyields⟩)
    · rw [Builder.build_tree, Except.ok.injEq] at hbuild
      rw [← hbuild]
      exact ⟨_, .primitive code, hpasses⟩
    · obtain ⟨bytes, hform, hpasses⟩ :=
        (recognizes_composite hinner hitem _ _ _ _ _).mp hyields
      exact ⟨_, .composite hform, hpassesLead.trans hpasses⟩
  · rintro ⟨bytes, hform, hpasses⟩
    rcases hform with code | hform
    · exact .inl ⟨code, Builder.build_tree _, hpasses⟩
    · obtain ⟨middle, hpassesLead, hpasses⟩ := Cursor.passes_cons_iff.mp hpasses
      exact .inr ⟨_, middle, hpassesLead,
        (recognizes_composite hinner hitem _ _ _ _ _).mpr ⟨_, hform, hpasses⟩⟩

end

theorem startsTypes_encodes {condition : TypeTree → Prop} :
    StartsTypes fun tree bytes => Encodes tree bytes ∧ condition tree := by
  rintro tree bytes ⟨⟨hform⟩, -⟩
  rcases hform with code | hform
  · refine ⟨_, _, rfl, ?_⟩
    cases code <;> decide
  · refine ⟨_, _, rfl, ?_⟩
    cases hform <;> decide

/-- With a number of levels, the decoder recognizes the trees that fit into them. -/
theorem recognizes_typeWithin (levels : Nat) :
    (typeWithin Builder.tree levels).Recognizes fun tree bytes =>
      Encodes tree bytes ∧ tree.nesting ≤ levels := by
  induction levels with
  | zero =>
      intro cursor tree after
      constructor
      · intro hyields
        simp [typeWithin] at hyields
      · rintro ⟨bytes, ⟨-, hnesting⟩, -⟩
        exact absurd tree.nesting_pos (by omega)
  | succ levels ih =>
      -- The bound on the parts is taken out of the form and becomes one on the tree.
      refine (recognizes_production ih startsTypes_encodes).congr fun tree bytes => ?_
      rw [typeForm_and_iff, ← encodes_iff, TypeTree.nesting_le_iff]

/-- A computation up to the end of the blob succeeds where the whole blob is a word. -/
theorem Recognizes.whole {τ α : Type} {computation : Decode τ α}
    {language : α → List UInt8 → Prop} (hcomputation : computation.Recognizes language)
    (blob : List UInt8) (value : α) :
    ((do
      let value ← computation
      Read.finish
      return value : Decode τ α).run (.start blob)).result = .ok value ↔
      language value blob := by
  constructor
  · intro hresult
    obtain ⟨result, middle, hvalue, hyields⟩ := yields_bind_iff.mp ⟨hresult, rfl⟩
    obtain ⟨_, after, hfinish, hyields⟩ := yields_bind_iff.mp hyields
    obtain ⟨rfl, -⟩ := yields_pure_iff.mp hyields
    obtain ⟨bytes, hbytes, hpasses⟩ := (hcomputation _ _ _).mp hvalue
    have hblob := hpasses.rest
    rw [(yields_finish_iff.mp hfinish).2, List.append_nil] at hblob
    rw [show blob = bytes from hblob]
    exact hbytes
  · intro hblob
    have hpasses : (Cursor.start blob).Passes blob ⟨blob.length, []⟩ :=
      ⟨(List.append_nil blob).symm, (Nat.zero_add _).symm⟩
    have hvalue := (hcomputation _ _ _).mpr ⟨blob, hblob, hpasses⟩
    have hyields : (do
        let value ← computation
        Read.finish
        return value : Decode τ α).Yields (.start blob) value ⟨blob.length, []⟩ := by
      refine hvalue.bind ?_
      refine (yields_finish_iff.mpr ⟨rfl, rfl⟩).bind ?_
      exact yields_pure_iff.mpr ⟨rfl, rfl⟩
    exact hyields.1

/-- A field header and a type after it. -/
theorem recognizes_field {inner : Decode TypeTree TypeTree}
    {item : TypeTree → List UInt8 → Prop} (hinner : inner.Recognizes item) :
    (do
      let _ ← Read.header .field
      inner : Decode TypeTree TypeTree).Recognizes (FieldForm item) := by
  intro cursor tree after
  constructor
  · intro hyields
    obtain ⟨header, middle, hheader, htree⟩ := yields_bind_iff.mp hyields
    obtain ⟨_, ⟨hkind, rfl⟩, hpassesHeader⟩ := (recognizes_header _ _ _ _).mp hheader
    obtain ⟨bytes, hbytes, hpasses⟩ := (hinner _ _ _).mp htree
    exact ⟨_, .mk hkind hbytes, hpassesHeader.trans hpasses⟩
  · rintro ⟨_, ⟨hkind, hbytes⟩, hpasses⟩
    obtain ⟨middle, hpassesHeader, hpasses⟩ := Cursor.passes_cons_iff.mp hpasses
    have hheader := (recognizes_header (τ := TypeTree) _ _ _ _).mpr
      ⟨_, ⟨hkind, rfl⟩, hpassesHeader⟩
    exact hheader.bind ((hinner _ _ _).mpr ⟨_, hbytes, hpasses⟩)

end Decode

variable (blob : List UInt8)

/-- Decoding a blob as a type succeeds with a tree exactly where the whole blob is
an encoding of the tree and the tree is not nested too deeply. -/
theorem wholeType_eq_ok_iff (tree : TypeTree) :
    ((Decode.wholeType Builder.tree).run (.start blob)).result = .ok tree ↔
      Encodes tree blob ∧ tree.nesting ≤ maxNesting :=
  (Decode.recognizes_typeWithin maxNesting).whole blob tree

theorem wholeField_eq_ok_iff (tree : TypeTree) :
    ((Decode.wholeField Builder.tree).run (.start blob)).result = .ok tree ↔
      FieldForm Encodes tree blob ∧ tree.nesting ≤ maxNesting := by
  have hfield := Decode.recognizes_field (Decode.recognizes_typeWithin maxNesting)
  have hwhole := hfield.whole blob tree
  rw [bind_assoc, fieldForm_and_iff] at hwhole
  exact hwhole

theorem wholeMethod_eq_ok_iff (signature : MethodSignature TypeTree) :
    ((Decode.wholeMethod Builder.tree).run (.start blob)).result = .ok signature ↔
      MethodForm Encodes signature blob ∧
        ∀ part ∈ signature.types, part.nesting ≤ maxNesting := by
  rw [← methodForm_and_iff]
  exact (Decode.recognizes_method (Decode.recognizes_typeWithin maxNesting)
    Decode.startsTypes_encodes).whole blob signature

/-- The decoder is exact.  A blob decodes to a type, to the type of a field or to a
method signature exactly where the whole blob is written by the grammar for it and
no type in it is nested too deeply. -/
theorem whole_eq_ok_iff :
    (∀ tree, ((Decode.wholeType Builder.tree).run (.start blob)).result = .ok tree ↔
      Encodes tree blob ∧ tree.nesting ≤ maxNesting) ∧
    (∀ tree, ((Decode.wholeField Builder.tree).run (.start blob)).result = .ok tree ↔
      FieldForm Encodes tree blob ∧ tree.nesting ≤ maxNesting) ∧
    (∀ signature,
      ((Decode.wholeMethod Builder.tree).run (.start blob)).result = .ok signature ↔
        MethodForm Encodes signature blob ∧
          ∀ part ∈ signature.types, part.nesting ≤ maxNesting) :=
  ⟨wholeType_eq_ok_iff blob, wholeField_eq_ok_iff blob, wholeMethod_eq_ok_iff blob⟩

end TypeProjection.Signature

import Std.Data.String.ToNat
import TypeProjection.Proofs.Descriptor.RoundTrip
import TypeProjection.Proofs.Metadata.Tokens
import TypeProjection.Proofs.Text.Joining

/-!
# Texts of descriptors

The text of a descriptor tells which descriptor it is, but for the lower bounds of its arrays,
which it does not show.  The leaf has a text of its own, in which no suffix starts, and each
array and each pointer around it adds a suffix.  An array lists as many entries as its rank
says, however few sizes it has, so the rank is read from their number and the sizes from the
entries themselves.
-/

namespace TypeProjection

open TypeProjection.Metadata TypeProjection.Signature

/-! ## Entries -/

namespace Signature.Dimensions

variable {left right : Dimensions}

/-- The entry for one dimension: its size, or a question mark if it has none. -/
def entry (size? : Option UInt32) : String :=
  size?.elim "?" fun size => toString size.toNat

theorem entry_injective {size? other? : Option UInt32} (hentry : entry size? = entry other?) :
    size? = other? := by
  have hmark (size : UInt32) : toString size.toNat ≠ "?" := by
    intro hsize
    have hdigit : '?'.isDigit := by
      refine Nat.isDigit_of_mem_toDigits (b := 10) (n := size.toNat) (by decide) (by decide) ?_
      rw [← Nat.toList_repr, ← Nat.toString_eq_repr, hsize]
      exact List.mem_singleton_self '?'
    exact absurd hdigit (by decide)
  cases size? with
  | none =>
      cases other? with
      | none => rfl
      | some other => exact absurd hentry.symm (hmark other)
  | some size =>
      cases other? with
      | none => exact absurd hentry (hmark size)
      | some other => rw [UInt32.toNat_inj.mp (Nat.repr_injective hentry)]

/-- Every dimension has an entry, whether it has a size or not. -/
theorem texts_eq_map_range (dimensions : Dimensions) :
    dimensions.texts =
      (List.range dimensions.rank.toNat).map fun index => entry dimensions.sizes[index]? := by
  apply List.ext_getElem?
  intro index
  rw [texts, List.getElem?_append, List.length_take, List.length_map, List.getElem?_take,
    List.getElem?_map, List.getElem?_map, List.getElem?_replicate]
  by_cases hrank : index < dimensions.rank.toNat
  · rw [List.getElem?_range hrank, Option.map_some, if_pos hrank]
    by_cases hsize : index < dimensions.sizes.length
    · rw [if_pos (Nat.lt_min.mpr ⟨hrank, hsize⟩), List.getElem?_eq_getElem hsize]
      rfl
    · rw [if_neg (by omega), if_pos (by omega), List.getElem?_eq_none (Nat.not_lt.mp hsize)]
      rfl
  · have hnone : (List.range dimensions.rank.toNat)[index]? = none :=
      List.getElem?_eq_none (by rw [List.length_range]; omega)
    rw [hnone, if_neg (by omega), if_neg (by omega)]
    rfl

theorem length_texts (dimensions : Dimensions) :
    dimensions.texts.length = dimensions.rank.toNat := by
  rw [texts_eq_map_range, List.length_map, List.length_range]

theorem plain_texts (dimensions : Dimensions) :
    (Text.Suffix.brackets dimensions.texts).Plain := by
  intro item hitem
  rw [texts_eq_map_range] at hitem
  obtain ⟨index, -, rfl⟩ := List.mem_map.mp hitem
  cases dimensions.sizes[index]? with
  | none => decide
  | some size => exact Text.Suffix.plain_toString size.toNat

/-- The entries tell the rank and the sizes, if no size is beyond the rank. -/
theorem texts_inj (hleft : left.sizes.length ≤ left.rank.toNat)
    (hright : right.sizes.length ≤ right.rank.toNat) (htexts : left.texts = right.texts) :
    left.rank = right.rank ∧ left.sizes = right.sizes := by
  have hrank : left.rank = right.rank := by
    rw [← UInt32.toNat_inj, ← length_texts, ← length_texts, htexts]
  refine ⟨hrank, List.ext_getElem? fun index => ?_⟩
  by_cases hindex : index < left.rank.toNat
  · rw [texts_eq_map_range, texts_eq_map_range, ← hrank, List.map_inj_left] at htexts
    exact entry_injective (htexts index (List.mem_range.mpr hindex))
  · rw [hrank] at hindex hleft
    rw [List.getElem?_eq_none (by omega), List.getElem?_eq_none (by omega)]

end Signature.Dimensions

/-! ## Leaves -/

namespace Signature.Primitive

variable (code : Primitive)

theorem name_injective {left right : Primitive} (hname : left.name = right.name) :
    left = right := by
  have hread := ofName?_name left
  rw [hname, ofName?_name] at hread
  exact (Option.some.inj hread).symm

theorem not_starts_name : ∀ letter ∈ code.name.toList, ¬ Text.Suffix.starts letter := by
  rw [← List.any_eq_false]
  cases code <;> decide

/-- No name looks like the text of a token. -/
theorem head?_name_ne : code.name.toList.head? ≠ some '0' := by
  cases code <;> decide

end Signature.Primitive

namespace Metadata.Handle

variable (handle : Handle)

theorem toList_text :
    handle.text.toList = '0' :: 'x' :: (Text.upperHex 8 handle.token.toNat).toList := by
  rw [text, String.toList_append]
  rfl

theorem not_starts_text : ∀ letter ∈ handle.text.toList, ¬ Text.Suffix.starts letter := by
  intro letter hletter hstarts
  rw [toList_text, List.mem_cons, List.mem_cons] at hletter
  rcases hletter with rfl | rfl | hdigit
  · exact absurd hstarts (by decide)
  · exact absurd hstarts (by decide)
  · have hread := Text.readHexDigits?_upperHex 8 handle.token.toNat
    have hhex := Text.isSome_hexDigit?_of_read hread letter hdigit
    rw [Text.Suffix.starts, Bool.or_eq_true, beq_iff_eq, beq_iff_eq] at hstarts
    rcases hstarts with rfl | rfl
    · exact absurd hhex (by decide)
    · exact absurd hhex (by decide)

end Metadata.Handle

/-! ## Descriptors -/

namespace Descriptor

variable {descriptor left right : Descriptor}

/-- A descriptor whose text shows all of it but lower bounds: its leaf fits into a token, and
its arrays have no sizes beyond their rank. -/
structure Legible (descriptor : Descriptor) : Prop where
  leaf : ∀ handle, descriptor.leaf = .named handle → handle.row ≤ maxRow
  arrays : ∀ dimensions ∈ descriptor.arrays,
    dimensions.sizes.length ≤ dimensions.rank.toNat

/-- The same descriptor with no lower bounds in its arrays. -/
def withoutLowerBounds : Descriptor → Descriptor
  | primitive code => primitive code
  | named handle => named handle
  | array element dimensions =>
      array element.withoutLowerBounds { dimensions with lowerBounds := [] }
  | pointer element => pointer element.withoutLowerBounds

/-- What stands behind the leaf, from the outside in. -/
def suffixes : Descriptor → List Text.Suffix
  | primitive _ => []
  | named _ => []
  | array element dimensions => .brackets dimensions.texts :: element.suffixes
  | pointer element => .star :: element.suffixes

theorem text_eq_append (descriptor : Descriptor) :
    descriptor.text = descriptor.leaf.text ++
      String.join (descriptor.suffixes.reverse.map Text.Suffix.text) := by
  induction descriptor with
  | primitive code => exact String.append_empty.symm
  | named handle => exact String.append_empty.symm
  | array element dimensions ih =>
      rw [text, ih, leaf, suffixes, Text.join_map_reverse_cons, Text.Suffix.text]
      simp only [String.append_assoc]
  | pointer element ih =>
      rw [text, ih, leaf, suffixes, Text.join_map_reverse_cons, Text.Suffix.text,
        String.append_assoc]

theorem plain_suffixes (descriptor : Descriptor) :
    ∀ suffix ∈ descriptor.suffixes, suffix.Plain := by
  induction descriptor with
  | primitive code => exact List.forall_mem_nil _
  | named handle => exact List.forall_mem_nil _
  | array element dimensions ih => exact List.forall_mem_cons.mpr ⟨dimensions.plain_texts, ih⟩
  | pointer element ih => exact List.forall_mem_cons.mpr ⟨trivial, ih⟩

theorem not_starts_leaf (descriptor : Descriptor) :
    ∀ letter ∈ descriptor.leaf.text.toList, ¬ Text.Suffix.starts letter := by
  rcases descriptor.leaf_cases with ⟨code, hleaf⟩ | ⟨handle, hleaf⟩
  · rw [hleaf]
    exact code.not_starts_name
  · rw [hleaf]
    exact handle.not_starts_text

/-- Leaves have texts of their own, whether they are primitive types or handles. -/
theorem Legible.leaf_eq (hleft : left.Legible) (hright : right.Legible)
    (htext : left.leaf.text = right.leaf.text) : left.leaf = right.leaf := by
  have hmixed (code : Primitive) (handle : Handle) : code.name ≠ handle.text := by
    intro hsame
    apply code.head?_name_ne
    rw [hsame, handle.toList_text]
    rfl
  rcases left.leaf_cases with ⟨code, hleaf⟩ | ⟨handle, hleaf⟩
  · rcases right.leaf_cases with ⟨other, hother⟩ | ⟨other, hother⟩
    · rw [hleaf, hother] at htext ⊢
      rw [Primitive.name_injective htext]
    · rw [hleaf, hother] at htext
      exact absurd htext (hmixed code other)
  · rcases right.leaf_cases with ⟨other, hother⟩ | ⟨other, hother⟩
    · rw [hleaf, hother] at htext
      exact absurd htext.symm (hmixed other handle)
    · rw [hleaf, hother] at htext ⊢
      rw [Handle.text_inj (hleft.leaf handle hleaf) (hright.leaf other hother) htext]

/-- Leaf and suffixes make up a legible descriptor, but for lower bounds. -/
theorem withoutLowerBounds_eq_of_suffixes
    (hleft : ∀ dimensions ∈ left.arrays, dimensions.sizes.length ≤ dimensions.rank.toNat)
    (hright : ∀ dimensions ∈ right.arrays, dimensions.sizes.length ≤ dimensions.rank.toNat)
    (hleaf : left.leaf = right.leaf) (hsuffixes : left.suffixes = right.suffixes) :
    left.withoutLowerBounds = right.withoutLowerBounds := by
  induction left generalizing right with
  | primitive code =>
      cases right with
      | primitive other => exact hleaf
      | named other => exact hleaf
      | array => cases hsuffixes
      | pointer => cases hsuffixes
  | named handle =>
      cases right with
      | primitive other => exact hleaf
      | named other => exact hleaf
      | array => cases hsuffixes
      | pointer => cases hsuffixes
  | array element dimensions ih =>
      cases right with
      | primitive => cases hsuffixes
      | named => cases hsuffixes
      | array other otherDimensions =>
          obtain ⟨htexts, hinner⟩ := List.cons.inj hsuffixes
          obtain ⟨hsizes, hleftRest⟩ := List.forall_mem_cons.mp hleft
          obtain ⟨hotherSizes, hrightRest⟩ := List.forall_mem_cons.mp hright
          obtain ⟨hrank, hlisted⟩ := Dimensions.texts_inj hsizes hotherSizes
            (Text.Suffix.brackets.inj htexts)
          rw [withoutLowerBounds, withoutLowerBounds, ih hleftRest hrightRest hleaf hinner,
            hrank, hlisted]
      | pointer => cases hsuffixes
  | pointer element ih =>
      cases right with
      | primitive => cases hsuffixes
      | named => cases hsuffixes
      | array => cases hsuffixes
      | pointer other =>
          have hinner := (List.cons.inj hsuffixes).2
          rw [withoutLowerBounds, withoutLowerBounds, @ih other hleft hright hleaf hinner]

/-- Lower bounds are not shown. -/
theorem text_withoutLowerBounds (descriptor : Descriptor) :
    descriptor.withoutLowerBounds.text = descriptor.text := by
  induction descriptor with
  | primitive code => rfl
  | named handle => rfl
  | array element dimensions ih =>
      rw [withoutLowerBounds, text, text, ih]
      rfl
  | pointer element ih => rw [withoutLowerBounds, text, text, ih]

theorem text_eq_iff (hleft : left.Legible) (hright : right.Legible) :
    left.text = right.text ↔ left.withoutLowerBounds = right.withoutLowerBounds := by
  constructor
  · intro htext
    rw [left.text_eq_append, right.text_eq_append] at htext
    have hplain (descriptor : Descriptor) :
        ∀ suffix ∈ descriptor.suffixes.reverse, suffix.Plain := fun suffix hsuffix =>
      descriptor.plain_suffixes suffix (List.mem_reverse.mp hsuffix)
    obtain ⟨hleaf, hsuffixes⟩ := Text.Suffix.append_join_inj left.not_starts_leaf
      right.not_starts_leaf (hplain left) (hplain right) htext
    exact withoutLowerBounds_eq_of_suffixes hleft.arrays hright.arrays
      (hleft.leaf_eq hright hleaf) (List.reverse_inj.mp hsuffixes)
  · intro hsame
    rw [← left.text_withoutLowerBounds, hsame, right.text_withoutLowerBounds]

/-- Descriptors that a signature can hold are legible. -/
theorem WellFormed.legible (hwell : descriptor.WellFormed) : descriptor.Legible where
  leaf handle hleaf := by
    have hnameable := hwell.leaf
    rw [hleaf] at hnameable
    cases hnameable with
    | definition _ hrow => exact hrow
    | reference _ hrow => exact hrow
  arrays dimensions hdimensions := (hwell.arrays dimensions hdimensions).length_sizes_le

/-! ## Identification -/

/-- How the texts of descriptors identify them. -/
structure Identified : Prop where
  /-- Legible descriptors have the same text exactly if they are equal up to the lower bounds of
  their arrays. -/
  same : ∀ left right : Descriptor, left.Legible → right.Legible →
    (left.text = right.text ↔ left.withoutLowerBounds = right.withoutLowerBounds)
  /-- Whatever is decoded is legible: a type, the type of a field, and all types of a method. -/
  type : ∀ blob descriptor, decodeType blob = .ok descriptor → descriptor.Legible
  field : ∀ blob descriptor, decodeField blob = .ok descriptor → descriptor.Legible
  method : ∀ blob signature, decodeMethod blob = .ok signature →
    ∀ descriptor ∈ signature.types, descriptor.Legible
  /-- An array lists one entry for each unit of its rank. -/
  listed : ∀ (element : Descriptor) (dimensions : Dimensions),
    (array element dimensions).text = element.text ++ "[" ++
      ", ".intercalate ((List.range dimensions.rank.toNat).map fun index =>
        Dimensions.entry dimensions.sizes[index]?) ++ "]"
  /-- These are the sizes in their order, and then a question mark for each that is missing. -/
  entries : ∀ dimensions : Dimensions, dimensions.sizes.length ≤ dimensions.rank.toNat →
    ((List.range dimensions.rank.toNat).map fun index =>
      Dimensions.entry dimensions.sizes[index]?) =
        (dimensions.sizes.map fun size => toString size.toNat) ++
          List.replicate (dimensions.rank.toNat - dimensions.sizes.length) "?"

/-- The text of a descriptor identifies it, as far as texts show descriptors. -/
theorem text_identifies : Identified where
  same left right := text_eq_iff
  type blob descriptor hdecode := (decodeType_eq_ok_iff.mp hdecode).1.legible
  field blob descriptor hdecode := (wellFormed_of_decodeField hdecode).legible
  method blob signature hdecode descriptor htype :=
    (wellFormed_of_decodeMethod hdecode descriptor htype).legible
  listed element dimensions := by
    rw [text, Dimensions.texts_eq_map_range]
  entries dimensions hsizes := by
    rw [← Dimensions.texts_eq_map_range, Dimensions.texts, List.take_of_length_le]
    rwa [List.length_map]

/-- Two arrays of handles that differ in their lower bounds, and one with the same digits in its
sizes, all of them with a dimension more than they have sizes. -/
theorem text_identifies_lowerBounds :
    let ofDimensions (sizes : List UInt32) (lowerBounds : List Int32) : Descriptor :=
      pointer (array (named ⟨.typeReference, 4⟩) ⟨3, sizes, lowerBounds⟩)
    (ofDimensions [2, 10] [-1]).text = (ofDimensions [2, 10] [0, 7]).text ∧
      (ofDimensions [2, 10] []).text ≠ (ofDimensions [21, 0] []).text := by
  intro ofDimensions
  have hlegible (sizes : List UInt32) (lowerBounds : List Int32) (hsizes : sizes.length ≤ 3) :
      (ofDimensions sizes lowerBounds).Legible := by
    refine ⟨?_, List.forall_mem_singleton.mpr hsizes⟩
    intro handle hleaf
    obtain rfl := named.inj hleaf
    decide
  constructor
  · exact (text_identifies.same _ _ (hlegible [2, 10] [-1] (by decide))
      (hlegible [2, 10] [0, 7] (by decide))).mpr rfl
  · intro hsame
    have hequal := (text_identifies.same _ _ (hlegible [2, 10] [] (by decide))
      (hlegible [21, 0] [] (by decide))).mp hsame
    cases hequal

end Descriptor

end TypeProjection

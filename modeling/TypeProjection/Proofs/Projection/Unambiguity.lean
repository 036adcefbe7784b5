import Std.Data.String.ToNat
import TypeProjection.Proofs.Projection.Wrapping
import TypeProjection.Proofs.Text.Joining

/-!
# Texts of primitive types

The text of a rendered primitive type, inside any arrays and pointers, tells which type it
is, up to what an array does not show.  The leaf has a text of its own under either spelling
of the native-width integers, and the arrays and pointers are suffixes behind it.
-/

namespace TypeProjection

open TypeProjection.Signature TypeProjection.Source

/-! ## Wrappers -/

namespace Wrapper

/-- What a wrapper writes behind its element. -/
def mark : Wrapper → Text.Suffix
  | array sizes => .brackets (sizes.map fun size => toString size.toNat)
  | pointer => .star

theorem text_mark (wrapper : Wrapper) : wrapper.mark.text = wrapper.suffix := by
  cases wrapper <;> rfl

theorem mark_injective {left right : Wrapper} (hmark : left.mark = right.mark) :
    left = right := by
  have hsize (size other : UInt32) (htext : toString size.toNat = toString other.toNat) :
      size = other :=
    UInt32.toNat_inj.mp (Nat.repr_injective htext)
  cases left with
  | array sizes =>
      cases right with
      | array otherSizes =>
          rw [(List.map_inj_right hsize).mp (Text.Suffix.brackets.inj hmark)]
      | pointer => cases hmark
  | pointer =>
      cases right with
      | array sizes => cases hmark
      | pointer => rfl

theorem plain_mark (wrapper : Wrapper) : wrapper.mark.Plain := by
  cases wrapper with
  | array sizes =>
      intro item hitem
      obtain ⟨size, -, rfl⟩ := List.mem_map.mp hitem
      exact Text.Suffix.plain_toString size.toNat
  | pointer => trivial

/-- Texts with wrappers behind them are told apart, if no leaf looks like a wrapper. -/
theorem append_suffixes_inj {left right : String} {leftWrappers rightWrappers : List Wrapper}
    (hleft : ∀ letter ∈ left.toList, ¬ Text.Suffix.starts letter)
    (hright : ∀ letter ∈ right.toList, ¬ Text.Suffix.starts letter) :
    left ++ String.join (leftWrappers.reverse.map suffix) =
        right ++ String.join (rightWrappers.reverse.map suffix) ↔
      left = right ∧ leftWrappers = rightWrappers := by
  have hmarks (wrappers : List Wrapper) :
      wrappers.reverse.map suffix = (wrappers.map mark).reverse.map Text.Suffix.text := by
    rw [← List.map_reverse, List.map_map]
    exact List.map_congr_left fun wrapper _ => (text_mark wrapper).symm
  have hplain (wrappers : List Wrapper) : ∀ sign ∈ (wrappers.map mark).reverse, sign.Plain := by
    intro sign hsign
    obtain ⟨wrapper, -, rfl⟩ := List.mem_map.mp (List.mem_reverse.mp hsign)
    exact plain_mark wrapper
  constructor
  · intro hsame
    rw [hmarks, hmarks] at hsame
    obtain ⟨hleaf, hsuffixes⟩ := Text.Suffix.append_join_inj hleft hright
      (hplain leftWrappers) (hplain rightWrappers) hsame
    have hwrappers := (List.map_inj_right fun _ _ => mark_injective).mp
      (List.reverse_inj.mp hsuffixes)
    exact ⟨hleaf, hwrappers⟩
  · rintro ⟨rfl, rfl⟩
    rfl

end Wrapper

/-! ## Leaves -/

namespace Signature.Primitive

theorem mem_all (code : Primitive) : code ∈ all := by
  cases code <;> decide

/-- No primitive type is written with a letter that starts a suffix. -/
theorem not_starts_text (code : Primitive) (nativeWidth : Bool) :
    ∀ letter ∈ (code.typeExpr nativeWidth).text.toList, ¬ Text.Suffix.starts letter := by
  rw [← List.any_eq_false]
  cases code <;> cases nativeWidth <;> decide

/-- Different primitive types have different texts. -/
theorem text_typeExpr_inj {left right : Primitive} {nativeWidth : Bool} :
    (left.typeExpr nativeWidth).text = (right.typeExpr nativeWidth).text ↔ left = right := by
  have hall : ∀ nativeWidth, ∀ left ∈ all, ∀ right ∈ all,
      (left.typeExpr nativeWidth).text = (right.typeExpr nativeWidth).text → left = right := by
    decide
  exact ⟨hall nativeWidth left left.mem_all right right.mem_all, fun hsame => by rw [hsame]⟩

end Signature.Primitive

/-! ## Descriptors -/

namespace Descriptor

/-- Every array has a size for each of its dimensions, and no lower bounds. -/
inductive Sized : Descriptor → Prop
  | primitive {code : Primitive} : Sized (.primitive code)
  | named {handle : Metadata.Handle} : Sized (.named handle)
  | array {element : Descriptor} {sizes : List UInt32} :
      Sized element → Sized (.array element (.fixed sizes))
  | pointer {element : Descriptor} : Sized element → Sized (.pointer element)

/-- Leaf and wrappers make up a descriptor whose arrays are sized. -/
theorem Sized.eq_of_wrappers {left right : Descriptor} (hleft : left.Sized)
    (hright : right.Sized) (hleaf : left.leaf = right.leaf)
    (hwrappers : left.wrappers = right.wrappers) : left = right := by
  induction hleft generalizing right with
  | primitive =>
      cases hright with
      | primitive => exact hleaf
      | named => exact hleaf
      | array => cases hwrappers
      | pointer => cases hwrappers
  | named =>
      cases hright with
      | primitive => exact hleaf
      | named => exact hleaf
      | array => cases hwrappers
      | pointer => cases hwrappers
  | array _ ih =>
      cases hright with
      | primitive => cases hwrappers
      | named => cases hwrappers
      | array hright =>
          obtain ⟨hsizes, hinner⟩ := List.cons.inj hwrappers
          cases hsizes
          rw [ih hright hleaf hinner]
      | pointer => cases hwrappers
  | pointer _ ih =>
      cases hright with
      | primitive => cases hwrappers
      | named => cases hwrappers
      | array => cases hwrappers
      | pointer hright => rw [ih hright hleaf (List.cons.inj hwrappers).2]

/-- Descriptors of primitive types are rendered with the same text exactly if they have the
same leaf and the same arrays and pointers around it, as far as sizes go.  With a size for
every dimension, the text tells the descriptor. -/
theorem rendered_text_unambiguous {leftSetting rightSetting : RenderSetting}
    (hwidth : leftSetting.policy.makes .nativeWidth = rightSetting.policy.makes .nativeWidth)
    {left right : Descriptor} {leftCode rightCode : Primitive}
    (hleft : left.leaf = .primitive leftCode) (hright : right.leaf = .primitive rightCode) :
    ∃ leftType rightType,
      left.outcome leftSetting = (.ok leftType, []) ∧
      right.outcome rightSetting = (.ok rightType, []) ∧
      (leftType.text = rightType.text ↔
        leftCode = rightCode ∧ left.wrappers = right.wrappers) ∧
      (left.Sized → right.Sized → (leftType.text = rightType.text ↔ left = right)) := by
  refine ⟨_, _, outcome_primitive hleft, outcome_primitive hright, ?_⟩
  rw [hwidth, around_eq_foldr, around_eq_foldr, Wrapper.text_foldr_around,
    Wrapper.text_foldr_around,
    Wrapper.append_suffixes_inj (leftCode.not_starts_text _) (rightCode.not_starts_text _),
    Primitive.text_typeExpr_inj]
  refine ⟨Iff.rfl, fun hleftSized hrightSized => ⟨?_, ?_⟩⟩
  · rintro ⟨rfl, hwrappers⟩
    exact hleftSized.eq_of_wrappers hrightSized (hleft.trans hright.symm) hwrappers
  · rintro rfl
    exact ⟨Descriptor.primitive.inj (hleft.symm.trans hright), rfl⟩

/-- A pointer to an array and an array of pointers, where nothing is looked up. -/
theorem rendered_text_unambiguous_pointers :
    let setting : RenderSetting :=
      ⟨⟨fun _ => none, fun _ => none⟩, .empty, .empty, .default⟩
    ∃ leftType rightType,
      (pointer (array (primitive .int32) (.fixed [2, 3]))).outcome setting =
        (.ok leftType, []) ∧
      (array (pointer (primitive .int32)) (.fixed [2, 3])).outcome setting =
        (.ok rightType, []) ∧
      leftType.text ≠ rightType.text := by
  intro setting
  have hwidth : setting.policy.makes .nativeWidth = setting.policy.makes .nativeWidth := rfl
  obtain ⟨leftType, rightType, hleft, hright, -, hsized⟩ :=
    rendered_text_unambiguous hwidth
      (rfl : (pointer (array (primitive .int32) (.fixed [2, 3]))).leaf = primitive .int32)
      (rfl : (array (pointer (primitive .int32)) (.fixed [2, 3])).leaf = primitive .int32)
  have htext := hsized (.pointer (.array .primitive)) (.array (.pointer .primitive))
  refine ⟨leftType, rightType, hleft, hright, ?_⟩
  intro hsame
  cases htext.mp hsame

end Descriptor

end TypeProjection

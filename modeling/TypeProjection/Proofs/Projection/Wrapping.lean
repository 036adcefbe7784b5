import TypeProjection.Proofs.Projection.Orthogonality
import TypeProjection.Proofs.Text.Joining

/-!
# Arrays and pointers around a leaf

Rendering decides everything at the leaf.  The arrays and pointers around it are written
around whatever the leaf came to: they ask for nothing, they carry no marks, and of an
array only its sizes are seen.  At the leaf itself an interface is either a pointer or a
marked name, never both.
-/

namespace TypeProjection

open TypeProjection.Metadata TypeProjection.Source

/-! ## Wrappers -/

/-- What is written around the rendering of an element. -/
inductive Wrapper where
  | array (sizes : List UInt32)
  | pointer
  deriving DecidableEq, Repr

namespace Wrapper

/-- The type with the wrapper around it, which has no marks. -/
def around : Wrapper → TypeExpr → TypeExpr
  | array sizes, type => .arrayOf type sizes
  | pointer, type => .pointerTo type

def suffix : Wrapper → String
  | array sizes => "[" ++ ", ".intercalate (sizes.map fun size => toString size.toNat) ++ "]"
  | pointer => "*"

theorem text_around (wrapper : Wrapper) (type : TypeExpr) :
    (wrapper.around type).text = type.text ++ wrapper.suffix := by
  cases wrapper with
  | array sizes =>
      rw [around, TypeExpr.arrayOf, TypeExpr.text, suffix]
      simp only [String.append_assoc]
  | pointer => rfl

/-- The text of a leaf comes first, and then the suffixes from the inside out. -/
theorem text_foldr_around (wrappers : List Wrapper) (type : TypeExpr) :
    (wrappers.foldr around type).text =
      type.text ++ String.join (wrappers.reverse.map suffix) := by
  induction wrappers with
  | nil => exact String.append_empty.symm
  | cons wrapper wrappers ih =>
      calc
        ((wrapper :: wrappers).foldr around type).text =
            (wrappers.foldr around type).text ++ wrapper.suffix :=
          text_around wrapper (wrappers.foldr around type)
        _ = type.text ++ (String.join (wrappers.reverse.map suffix) ++ wrapper.suffix) := by
          rw [ih, String.append_assoc]
        _ = type.text ++ String.join ((wrapper :: wrappers).reverse.map suffix) := by
          rw [Text.join_map_reverse_cons]

end Wrapper

/-- The marks of all nodes, from the outermost to the innermost. -/
def Source.TypeExpr.allMarks : TypeExpr → List Marks
  | .keyword marks _ => [marks]
  | .named marks _ => [marks]
  | .pointer marks pointee => marks :: pointee.allMarks
  | .array marks element _ => marks :: element.allMarks

def Source.TypeExpr.pointers : TypeExpr → Nat
  | .keyword _ _ => 0
  | .named _ _ => 0
  | .pointer _ pointee => pointee.pointers + 1
  | .array _ element _ => element.pointers

theorem Wrapper.allMarks_foldr_around (wrappers : List Wrapper) (type : TypeExpr) :
    (wrappers.foldr around type).allMarks =
      List.replicate wrappers.length .none ++ type.allMarks := by
  induction wrappers with
  | nil => rfl
  | cons wrapper wrappers ih =>
      cases wrapper with
      | array sizes => exact congrArg (Marks.none :: ·) ih
      | pointer => exact congrArg (Marks.none :: ·) ih

namespace Descriptor

/-- The arrays and pointers around the leaf, from the outside in.  Of an array, the
sizes count. -/
def wrappers : Descriptor → List Wrapper
  | primitive _ => []
  | named _ => []
  | array element dimensions => .array dimensions.sizes :: element.wrappers
  | pointer element => .pointer :: element.wrappers

theorem around_eq_foldr (descriptor : Descriptor) :
    descriptor.around = descriptor.wrappers.foldr Wrapper.around := by
  induction descriptor with
  | primitive code => rfl
  | named handle => rfl
  | array element dimensions ih =>
      funext type
      rw [around, ih]
      rfl
  | pointer element ih =>
      funext type
      rw [around, ih]
      rfl

end Descriptor

/-! ## Leaves -/

namespace RenderSetting

variable {setting : RenderSetting} {handle : Handle} {name : DottedName}

/-- How a leaf is written that has no substitute. -/
inductive LeafForm (setting : RenderSetting) : Descriptor → TypeExpr → Prop
  | primitive {code : Signature.Primitive} :
      LeafForm setting (.primitive code) (code.typeExpr (setting.policy.makes .nativeWidth))
  | object {handle : Handle} {simple : String} :
      setting.policy.makes .managedInterfaces → simple ∈ objectNames →
      setting.image.simpleName handle = .ok simple →
        LeafForm setting (.named handle) managedObject
  | kept {handle : Handle} {simple : String} {type : TypeExpr} :
      setting.WritesName handle type → setting.image.simpleName handle = .ok simple →
      ¬ (setting.policy.makes .managedInterfaces ∧ simple ∈ objectNames) →
        LeafForm setting (.named handle) type

/-- A resolved handle has its substitute or one of the forms. -/
theorem renderResolved_form {info : TypeInfo} {type : TypeExpr}
    (hinfo : setting.image.typeInfo handle = .ok info)
    (hname : setting.writtenName handle info = .ok name)
    (htype : (setting.renderResolved info name).result = .ok type) :
    (¬ setting.isObject info.name ∧ setting.substitute? info.name = some type) ∨
      setting.LeafForm (.named handle) type := by
  have hsimple := (Image.typeInfo_eq_ok hinfo).1
  by_cases hobject : setting.isObject info.name
  · right
    rw [renderResolved_of_object hobject] at htype
    cases htype
    rw [isObject_iff] at hobject
    exact .object hobject.1 hobject.2 hsimple
  cases hsubstitute : setting.substitute? info.name with
  | some substitute =>
      left
      rw [renderResolved_of_substituted hobject hsubstitute] at htype
      cases htype
      exact ⟨hobject, rfl⟩
  | none =>
      right
      rw [renderResolved_of_kept hobject hsubstitute] at htype
      rw [isObject_iff] at hobject
      exact .kept (renderNamed_writes hinfo hname htype) hsimple hobject

def InterfaceLeaf (setting : RenderSetting) (leaf : Descriptor) : Prop :=
  ∃ handle, leaf = .named handle ∧ setting.image.IsInterface handle

/-- The leaf has one of the names that may be written as objects. -/
def ObjectLeaf (setting : RenderSetting) (leaf : Descriptor) : Prop :=
  ∃ handle simple, leaf = .named handle ∧ setting.image.simpleName handle = .ok simple ∧
    simple ∈ objectNames

/-- How interfaces are projected by a type that is written for a leaf. -/
structure Projects (setting : RenderSetting) (leaf : Descriptor) (type : TypeExpr) : Prop where
  /-- It is a pointer to the name exactly for an interface where these are not managed, and
  neither of the two nodes has a mark. -/
  pointer : (∃ handle name, leaf = .named handle ∧ setting.NamedAs handle name ∧
      type = .pointerTo (.ofName name)) ↔
    setting.InterfaceLeaf leaf ∧ ¬ setting.policy.makes .managedInterfaces
  /-- Otherwise there is no pointer in it. -/
  pointers : ¬ (setting.InterfaceLeaf leaf ∧ ¬ setting.policy.makes .managedInterfaces) →
    type.pointers = 0
  /-- It is marked exactly for an interface or an object where interfaces are managed. -/
  marked : (∃ marks ∈ type.allMarks, marks.isManagedReference) ↔
    setting.policy.makes .managedInterfaces ∧
      (setting.InterfaceLeaf leaf ∨ setting.ObjectLeaf leaf)
  /-- Only the innermost node has marks. -/
  innermost : ∀ marks ∈ type.allMarks.dropLast, marks = .none

/-- A primitive type is a single node without marks. -/
theorem allMarks_typeExpr (code : Signature.Primitive) (nativeWidth : Bool) :
    (code.typeExpr nativeWidth).allMarks = [.none] := by
  cases code <;> rfl

theorem pointers_typeExpr (code : Signature.Primitive) (nativeWidth : Bool) :
    (code.typeExpr nativeWidth).pointers = 0 := by
  cases code <;> rfl

/-- A type whose nodes have no marks is not marked. -/
theorem not_marked_of_none {type : TypeExpr} (hnone : ∀ marks ∈ type.allMarks, marks = .none) :
    ¬ ∃ marks ∈ type.allMarks, marks.isManagedReference := by
  intro hmarked
  obtain ⟨marks, hmember, hmarked⟩ := hmarked
  rw [hnone marks hmember] at hmarked
  exact absurd hmarked (by decide)

@[simp]
theorem interfaceLeaf_named_iff :
    setting.InterfaceLeaf (.named handle) ↔ setting.image.IsInterface handle := by
  simp [InterfaceLeaf]

namespace LeafForm

variable {leaf : Descriptor} {type : TypeExpr}

theorem pointer_iff (hform : setting.LeafForm leaf type) :
    (∃ handle name, leaf = .named handle ∧ setting.NamedAs handle name ∧
        type = .pointerTo (.ofName name)) ↔
      setting.InterfaceLeaf leaf ∧ ¬ setting.policy.makes .managedInterfaces := by
  constructor
  · intro hpointer
    obtain ⟨handle, name, rfl, -, htype⟩ := hpointer
    cases hform with
    | object => cases htype
    | kept hwrites =>
        cases hwrites with
        | reference => cases htype
        | pointer hinterface hopen _ => exact ⟨interfaceLeaf_named_iff.mpr hinterface, hopen⟩
        | plain => cases htype
  · intro hopen
    obtain ⟨⟨handle, rfl, hinterface⟩, hopen⟩ := hopen
    cases hform with
    | object hmanaged => exact absurd hmanaged hopen
    | kept hwrites =>
        cases hwrites with
        | reference _ hmanaged _ => exact absurd hmanaged hopen
        | pointer _ _ hname => exact ⟨_, _, rfl, hname, rfl⟩
        | plain hplain => exact absurd hinterface hplain

theorem pointers_eq_zero (hform : setting.LeafForm leaf type)
    (hopen : ¬ (setting.InterfaceLeaf leaf ∧ ¬ setting.policy.makes .managedInterfaces)) :
    type.pointers = 0 := by
  cases hform with
  | primitive => exact pointers_typeExpr _ _
  | object => rfl
  | kept hwrites =>
      cases hwrites with
      | reference => rfl
      | pointer hinterface hunmanaged _ =>
          exact absurd ⟨interfaceLeaf_named_iff.mpr hinterface, hunmanaged⟩ hopen
      | plain => rfl

theorem marked_iff (hform : setting.LeafForm leaf type) :
    (∃ marks ∈ type.allMarks, marks.isManagedReference) ↔
      setting.policy.makes .managedInterfaces ∧
        (setting.InterfaceLeaf leaf ∨ setting.ObjectLeaf leaf) := by
  cases hform with
  | primitive =>
      apply iff_of_false
      · apply not_marked_of_none
        simp [allMarks_typeExpr]
      · simp [InterfaceLeaf, ObjectLeaf]
  | object hmanaged hobject hsimple =>
      apply iff_of_true
      · exact ⟨_, List.mem_singleton_self _, by decide⟩
      · exact ⟨hmanaged, .inr ⟨_, _, rfl, hsimple, hobject⟩⟩
  | kept hwrites hsimple hkept =>
      cases hwrites with
      | reference hinterface hmanaged _ =>
          apply iff_of_true
          · exact ⟨_, List.mem_singleton_self _, by decide⟩
          · exact ⟨hmanaged, .inl ⟨_, rfl, hinterface⟩⟩
      | pointer _ hopen _ =>
          apply iff_of_false
          · apply not_marked_of_none
            simp [TypeExpr.pointerTo, TypeExpr.ofName, TypeExpr.allMarks]
          · exact fun hmarked => hopen hmarked.1
      | plain hplain _ =>
          apply iff_of_false
          · apply not_marked_of_none
            simp [TypeExpr.ofName, TypeExpr.allMarks]
          · rintro ⟨hmanaged, hinterface | ⟨other, otherName, hother, hname, hobject⟩⟩
            · exact hplain (interfaceLeaf_named_iff.mp hinterface)
            · cases hother
              cases hsimple.symm.trans hname
              exact hkept ⟨hmanaged, hobject⟩

theorem innermost (hform : setting.LeafForm leaf type) :
    ∀ marks ∈ type.allMarks.dropLast, marks = .none := by
  cases hform with
  | primitive => simp [allMarks_typeExpr]
  | object => exact List.forall_mem_nil _
  | kept hwrites =>
      cases hwrites with
      | reference => exact List.forall_mem_nil _
      | pointer => exact List.forall_mem_singleton.mpr rfl
      | plain => exact List.forall_mem_nil _

end LeafForm

end RenderSetting

/-! ## Renderings -/

namespace Descriptor

variable (setting : RenderSetting) (descriptor : Descriptor)

/-- The leaf is a handle that renders without error.  Its simple name is not written as an
object and has a substitute, in the table that is always used or, without one there, in the
one that the policy enables. -/
def Substituted (substitute : TypeExpr) : Prop :=
  ∃ handle simple, descriptor.leaf = .named handle ∧
    (∃ type, (descriptor.leaf.outcome setting).1 = .ok type) ∧
    setting.image.simpleName handle = .ok simple ∧
    ¬ (setting.policy.makes .managedInterfaces ∧ simple ∈ objectNames) ∧
    (setting.builtin.get? simple = some substitute ∨
      setting.builtin.get? simple = none ∧ setting.policy.makes .marshaledSubstitutes ∧
        setting.marshaled.get? simple = some substitute)

/-- How the outcome of a descriptor comes from its leaf and its wrappers. -/
structure Wraps : Prop where
  /-- The error or the requests are those of the leaf, and around its type stand the
  wrappers in their order. -/
  outcome : descriptor.outcome setting =
    ((descriptor.leaf.outcome setting).1.map
        (fun type => descriptor.wrappers.foldr Wrapper.around type),
      (descriptor.leaf.outcome setting).2)
  /-- Nothing else of the wrappers is seen, neither the rank nor the lower bounds of an
  array. -/
  sizes : ∀ other : Descriptor, other.leaf = descriptor.leaf →
    other.wrappers = descriptor.wrappers →
      other.outcome setting = descriptor.outcome setting
  /-- No wrapper has marks. -/
  marks : ∀ type wrapped, (descriptor.leaf.outcome setting).1 = .ok type →
    (descriptor.outcome setting).1 = .ok wrapped →
      wrapped.allMarks = List.replicate descriptor.depth .none ++ type.allMarks
  /-- The wrappers alone say what is written behind the text of the leaf. -/
  text : ∀ type wrapped, (descriptor.leaf.outcome setting).1 = .ok type →
    (descriptor.outcome setting).1 = .ok wrapped →
      wrapped.text =
        type.text ++ String.join (descriptor.wrappers.reverse.map Wrapper.suffix)
  /-- A substitute is written as it is. -/
  substituted : ∀ substitute, descriptor.Substituted setting substitute →
    (descriptor.leaf.outcome setting).1 = .ok substitute
  /-- Without a substitute, interfaces are projected in one of two ways. -/
  projected : (¬ ∃ substitute, descriptor.Substituted setting substitute) →
    ∀ type, (descriptor.leaf.outcome setting).1 = .ok type →
      setting.Projects descriptor.leaf type

theorem outcome_eq_wrapped :
    descriptor.outcome setting =
      ((descriptor.leaf.outcome setting).1.map
          (fun type => descriptor.wrappers.foldr Wrapper.around type),
        (descriptor.leaf.outcome setting).2) := by
  obtain ⟨hrequests, hresult⟩ := render_leaf setting descriptor
  rw [around_eq_foldr] at hresult
  exact Prod.ext hresult hrequests

variable {setting descriptor}

theorem eq_wrapped_of_ok {type wrapped : TypeExpr}
    (htype : (descriptor.leaf.outcome setting).1 = .ok type)
    (hwrapped : (descriptor.outcome setting).1 = .ok wrapped) :
    wrapped = descriptor.wrappers.foldr Wrapper.around type := by
  rw [outcome_eq_wrapped, htype] at hwrapped
  exact (Except.ok.inj hwrapped).symm

theorem length_wrappers (descriptor : Descriptor) :
    descriptor.wrappers.length = descriptor.depth := by
  induction descriptor with
  | primitive code => rfl
  | named handle => rfl
  | array element dimensions ih => exact congrArg Nat.succ ih
  | pointer element ih => exact congrArg Nat.succ ih

/-- A handle that renders is resolved. -/
theorem exists_resolved {handle : Handle} {type : TypeExpr}
    (hleaf : descriptor.leaf = .named handle)
    (htype : (descriptor.leaf.outcome setting).1 = .ok type) :
    ∃ info name, setting.image.typeInfo handle = .ok info ∧
      setting.writtenName handle info = .ok name ∧
      (setting.renderResolved info name).result = .ok type := by
  rw [hleaf] at htype
  change (setting.renderHandle handle).result = .ok type at htype
  rcases setting.renderHandle_cases handle with
    ⟨-, error, hfailed⟩ | ⟨-, info, name, hinfo, hname, hresolved⟩
  · rw [hfailed] at htype
    cases htype
  · rw [hresolved] at htype
    exact ⟨info, name, hinfo, hname, htype⟩

/-- A leaf that renders has its substitute or one of the forms. -/
theorem leaf_form {type : TypeExpr} (htype : (descriptor.leaf.outcome setting).1 = .ok type) :
    descriptor.Substituted setting type ∨ setting.LeafForm descriptor.leaf type := by
  rcases descriptor.leaf_cases with ⟨code, hleaf⟩ | ⟨handle, hleaf⟩
  · right
    rw [hleaf] at htype ⊢
    cases htype
    exact .primitive
  · obtain ⟨info, name, hinfo, hname, hresult⟩ := exists_resolved hleaf htype
    rcases RenderSetting.renderResolved_form hinfo hname hresult with
      ⟨hobject, hsubstitute⟩ | hform
    · left
      rw [RenderSetting.isObject_iff] at hobject
      exact ⟨handle, info.name, hleaf, ⟨type, htype⟩, (Image.typeInfo_eq_ok hinfo).1, hobject,
        RenderSetting.substitute?_eq_some_iff.mp hsubstitute⟩
    · right
      rw [hleaf]
      exact hform

theorem Substituted.written {substitute : TypeExpr}
    (hsubstituted : descriptor.Substituted setting substitute) :
    (descriptor.leaf.outcome setting).1 = .ok substitute := by
  obtain ⟨handle, simple, hleaf, ⟨type, htype⟩, hsimple, hobject, htable⟩ := hsubstituted
  obtain ⟨info, name, hinfo, -, hresult⟩ := exists_resolved hleaf htype
  have hname : info.name = simple :=
    Except.ok.inj ((Image.typeInfo_eq_ok hinfo).1.symm.trans hsimple)
  rw [← RenderSetting.substitute?_eq_some_iff, ← hname] at htable
  rw [← RenderSetting.isObject_iff, ← hname] at hobject
  rw [RenderSetting.renderResolved_of_substituted hobject htable] at hresult
  exact htype.trans hresult.symm

/-- Every rendering is that of the leaf inside the wrappers, and projects interfaces in one
way. -/
theorem render_wraps (setting : RenderSetting) (descriptor : Descriptor) :
    descriptor.Wraps setting where
  outcome := outcome_eq_wrapped setting descriptor
  sizes other hleaf hwrappers := by
    rw [outcome_eq_wrapped setting other, hleaf, hwrappers]
    exact (outcome_eq_wrapped setting descriptor).symm
  marks type wrapped htype hwrapped := by
    rw [eq_wrapped_of_ok htype hwrapped, Wrapper.allMarks_foldr_around, length_wrappers]
  text type wrapped htype hwrapped := by
    rw [eq_wrapped_of_ok htype hwrapped, Wrapper.text_foldr_around]
  substituted substitute hsubstituted := hsubstituted.written
  projected hnone type htype := by
    have hform : setting.LeafForm descriptor.leaf type :=
      (leaf_form htype).resolve_left fun hsubstituted => hnone ⟨type, hsubstituted⟩
    exact ⟨hform.pointer_iff, hform.pointers_eq_zero, hform.marked_iff, hform.innermost⟩

end Descriptor

end TypeProjection

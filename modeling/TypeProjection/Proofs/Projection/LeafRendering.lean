import TypeProjection.Projection.Rendering

/-!
# How a handle is rendered

All decisions of a rendering are made at the handle at its leaf.  This file states what is
looked up for it, and the few ways in which it is written: as the managed object, by a
substitute, or under the name of its row, which alone sends a request.
-/

namespace TypeProjection

open TypeProjection.Metadata TypeProjection.Source

/-- The managed object that stands for some well-known types. -/
def managedObject : TypeExpr :=
  (TypeExpr.ofKeyword .object).withMarks .managedReference

/-! ## Rows -/

/-- The request is for the type that the handle names. -/
inductive Request.Names : Request → Handle → Prop
  | definition {row : UInt32} : Names (.definition ⟨row⟩) ⟨.typeDefinition, row⟩
  | reference {row : UInt32} : Names (.reference ⟨row⟩) ⟨.typeReference, row⟩

theorem Request.names_of_ofHandle? {handle : Handle} {request : Request}
    (hrequest : Request.ofHandle? handle = some request) : request.Names handle := by
  obtain ⟨kind, row⟩ := handle
  cases kind <;> cases hrequest
  · exact .reference
  · exact .definition

namespace Metadata.Image

variable {image : Image} {handle : Handle} {info : TypeInfo}

def IsInterface (image : Image) (handle : Handle) : Prop :=
  ∃ definition row, Request.ofHandle? handle = some (.definition definition) ∧
    image.definition? definition = some row ∧ row.isInterface

/-- What rendering reads comes from the row of a definition or of a reference. -/
theorem typeInfo_cases (hinfo : image.typeInfo handle = .ok info) :
    (∃ definition row, Request.ofHandle? handle = some (.definition definition) ∧
      image.definition? definition = some row ∧
      info = ⟨row.name, row.isInterface, .definition definition⟩) ∨
    ∃ reference row, Request.ofHandle? handle = some (.reference reference) ∧
      image.reference? reference = some row ∧
      info = ⟨row.name, false, .reference reference⟩ := by
  rw [typeInfo] at hinfo
  cases hrequest : Request.ofHandle? handle with
  | none => simp [hrequest] at hinfo
  | some request =>
      cases request with
      | definition definition =>
          cases hrow : image.definition? definition with
          | none => simp [hrequest, hrow] at hinfo
          | some row =>
              simp only [hrequest, hrow, Except.ok.injEq] at hinfo
              exact .inl ⟨definition, row, rfl, hrow, hinfo.symm⟩
      | reference reference =>
          cases hrow : image.reference? reference with
          | none => simp [hrequest, hrow] at hinfo
          | some row =>
              simp only [hrequest, hrow, Except.ok.injEq] at hinfo
              exact .inr ⟨reference, row, rfl, hrow, hinfo.symm⟩

/-- What rendering reads from a row agrees with the simple name of the handle and
with the request for it. -/
theorem typeInfo_eq_ok (hinfo : image.typeInfo handle = .ok info) :
    image.simpleName handle = .ok info.name ∧ info.request.Names handle := by
  rw [simpleName]
  rcases typeInfo_cases hinfo with
    ⟨definition, row, hrequest, hrow, rfl⟩ | ⟨reference, row, hrequest, hrow, rfl⟩
  · simp only [hrequest, hrow]
    exact ⟨trivial, Request.names_of_ofHandle? hrequest⟩
  · simp only [hrequest, hrow]
    exact ⟨trivial, Request.names_of_ofHandle? hrequest⟩

theorem exists_typeInfo {name : String} (hname : image.simpleName handle = .ok name) :
    ∃ info, image.typeInfo handle = .ok info := by
  rw [simpleName] at hname
  rw [typeInfo]
  cases hrequest : Request.ofHandle? handle with
  | none => simp [hrequest] at hname
  | some request =>
      cases request with
      | definition definition =>
          cases hrow : image.definition? definition with
          | none => simp [hrequest, hrow] at hname
          | some row => simp [hrow]
      | reference reference =>
          cases hrow : image.reference? reference with
          | none => simp [hrequest, hrow] at hname
          | some row => simp [hrow]

theorem isInterface_iff (hinfo : image.typeInfo handle = .ok info) :
    image.IsInterface handle ↔ info.isInterface := by
  constructor
  · intro hinterface
    obtain ⟨definition, row, hrequest, hrow, hbit⟩ := hinterface
    rcases typeInfo_cases hinfo with
      ⟨other, otherRow, hother, hotherRow, rfl⟩ | ⟨reference, _, hother, _, _⟩
    · cases hrequest.symm.trans hother
      cases hrow.symm.trans hotherRow
      exact hbit
    · cases hrequest.symm.trans hother
  · intro hbit
    rcases typeInfo_cases hinfo with
      ⟨definition, row, hrequest, hrow, rfl⟩ | ⟨reference, row, -, -, rfl⟩
    · exact ⟨definition, row, hrequest, hrow, hbit⟩
    · cases hbit

end Metadata.Image

namespace RenderSetting

variable (setting : RenderSetting)

/-- Everything that rendering looks up for a handle is found: its row and, if names are
qualified, the rows of the types that enclose it. -/
structure Resolves (handle : Handle) : Prop where
  simple : ∃ name, setting.image.simpleName handle = .ok name
  qualified : setting.policy.makes .qualifiedNames →
    ∃ name, setting.image.qualifiedName handle = .ok name

/-- The name of the handle, qualified if the policy asks for it. -/
def NamedAs (handle : Handle) (name : DottedName) : Prop :=
  if setting.policy.makes .qualifiedNames then setting.image.qualifiedName handle = .ok name
  else ∃ simple, setting.image.simpleName handle = .ok simple ∧ name = .simple simple

/-- The name of the handle is written: with a mark or in one pointer for an interface, and
as it is for any other type. -/
inductive WritesName (handle : Handle) : TypeExpr → Prop
  | reference {name : DottedName} :
      setting.image.IsInterface handle → setting.policy.makes .managedInterfaces →
      setting.NamedAs handle name →
        WritesName handle ((TypeExpr.ofName name).withMarks .managedReference)
  | pointer {name : DottedName} :
      setting.image.IsInterface handle → ¬ setting.policy.makes .managedInterfaces →
      setting.NamedAs handle name → WritesName handle (.pointerTo (.ofName name))
  | plain {name : DottedName} :
      ¬ setting.image.IsInterface handle → setting.NamedAs handle name →
        WritesName handle (.ofName name)

variable {setting} {handle : Handle} {info : TypeInfo} {name : DottedName}

/-! ## Names -/

theorem exists_writtenName_iff :
    (∃ name, setting.writtenName handle info = .ok name) ↔
      (setting.policy.makes .qualifiedNames →
        ∃ name, setting.image.qualifiedName handle = .ok name) := by
  rw [writtenName]
  by_cases hqualified : setting.policy.makes .qualifiedNames
  · rw [if_pos hqualified]
    exact ⟨fun hname _ => hname, fun hname => hname hqualified⟩
  · rw [if_neg hqualified]
    exact ⟨fun _ hmakes => absurd hmakes hqualified, fun _ => ⟨_, rfl⟩⟩

theorem namedAs_of_writtenName (hinfo : setting.image.typeInfo handle = .ok info)
    (hname : setting.writtenName handle info = .ok name) : setting.NamedAs handle name := by
  rw [writtenName] at hname
  rw [NamedAs]
  by_cases hqualified : setting.policy.makes .qualifiedNames
  · rw [if_pos hqualified] at hname ⊢
    exact hname
  · rw [if_neg hqualified] at hname ⊢
    exact ⟨info.name, (Image.typeInfo_eq_ok hinfo).1, (Except.ok.inj hname).symm⟩

theorem isObject_iff {simple : String} :
    setting.isObject simple ↔
      setting.policy.makes .managedInterfaces ∧ simple ∈ objectNames := by
  simp [isObject]

/-- The tables are asked one after the other, the second if the policy enables it. -/
theorem substitute?_eq (setting : RenderSetting) (simple : String) :
    setting.substitute? simple =
      (setting.builtin.get? simple).or
        (if setting.policy.makes .marshaledSubstitutes then setting.marshaled.get? simple
          else none) := by
  rw [substitute?]
  cases setting.builtin.get? simple <;> rfl

theorem substitute?_eq_none_iff {simple : String} :
    setting.substitute? simple = none ↔
      ¬ setting.builtin.contains simple ∧
        ¬ (setting.policy.makes .marshaledSubstitutes ∧
          setting.marshaled.contains simple) := by
  rw [Substitutes.contains_eq_isSome, Substitutes.contains_eq_isSome]
  rw [substitute?]
  cases setting.builtin.get? simple with
  | some substitute => simp
  | none => simp

theorem substitute?_eq_some_iff {simple : String} {substitute : TypeExpr} :
    setting.substitute? simple = some substitute ↔
      setting.builtin.get? simple = some substitute ∨
        setting.builtin.get? simple = none ∧ setting.policy.makes .marshaledSubstitutes ∧
          setting.marshaled.get? simple = some substitute := by
  rw [substitute?_eq, Option.or_eq_some_iff, Option.ite_none_right_eq_some]

/-! ## Ways to render a handle -/

theorem renderHandle_of_unresolved {error : ProjectionError}
    (hinfo : setting.image.typeInfo handle = .error error) :
    setting.renderHandle handle = .failed error := by
  rw [renderHandle, hinfo]

theorem renderHandle_of_unnamed {error : ProjectionError}
    (hinfo : setting.image.typeInfo handle = .ok info)
    (hname : setting.writtenName handle info = .error error) :
    setting.renderHandle handle = .failed error := by
  rw [renderHandle, hinfo]
  simp only [hname]

theorem renderHandle_of_resolved (hinfo : setting.image.typeInfo handle = .ok info)
    (hname : setting.writtenName handle info = .ok name) :
    setting.renderHandle handle = setting.renderResolved info name := by
  rw [renderHandle, hinfo]
  simp only [hname]

/-- A handle fails in a look-up, and is resolved otherwise. -/
theorem renderHandle_cases (setting : RenderSetting) (handle : Handle) :
    (¬ setting.Resolves handle ∧ ∃ error, setting.renderHandle handle = .failed error) ∨
      setting.Resolves handle ∧ ∃ info name, setting.image.typeInfo handle = .ok info ∧
        setting.writtenName handle info = .ok name ∧
        setting.renderHandle handle = setting.renderResolved info name := by
  cases hinfo : setting.image.typeInfo handle with
  | error error =>
      refine .inl ⟨?_, error, renderHandle_of_unresolved hinfo⟩
      intro hresolves
      obtain ⟨name, hname⟩ := hresolves.simple
      obtain ⟨info, hfound⟩ := Image.exists_typeInfo hname
      cases hinfo.symm.trans hfound
  | ok info =>
      cases hname : setting.writtenName handle info with
      | error error =>
          refine .inl ⟨?_, error, renderHandle_of_unnamed hinfo hname⟩
          intro hresolves
          obtain ⟨name, hfound⟩ := exists_writtenName_iff.mpr hresolves.qualified
          cases hname.symm.trans hfound
      | ok name =>
          have hsimple := (Image.typeInfo_eq_ok hinfo).1
          have hqualified := exists_writtenName_iff.mp ⟨name, hname⟩
          exact .inr ⟨⟨⟨_, hsimple⟩, hqualified⟩, info, name, rfl, hname,
            renderHandle_of_resolved hinfo hname⟩

theorem renderResolved_of_object (hobject : setting.isObject info.name) :
    setting.renderResolved info name = ⟨.ok managedObject, [], [.asObject info.name]⟩ := by
  rw [renderResolved, if_pos hobject]
  rfl

theorem renderResolved_of_substituted {substitute : TypeExpr}
    (hobject : ¬ setting.isObject info.name)
    (hsubstitute : setting.substitute? info.name = some substitute) :
    setting.renderResolved info name =
      ⟨.ok substitute, [], [.substituted info.name substitute]⟩ := by
  rw [renderResolved, if_neg hobject, hsubstitute]

theorem renderResolved_of_kept (hobject : ¬ setting.isObject info.name)
    (hsubstitute : setting.substitute? info.name = none) :
    setting.renderResolved info name = setting.renderNamed info name := by
  rw [renderResolved, if_neg hobject, hsubstitute]

theorem renderNamed_of_plain (hplain : ¬ info.isInterface) :
    setting.renderNamed info name =
      ⟨.ok (.ofName name), [info.request], [.requesting info.request]⟩ := by
  rw [renderNamed, if_neg hplain]

/-- A type that is written by its name is requested. -/
theorem renderNamed_requests (info : TypeInfo) (name : DottedName) :
    (setting.renderNamed info name).requests = [info.request] := by
  rw [renderNamed]
  split
  · split <;> rfl
  · rfl

theorem renderNamed_ok (setting : RenderSetting) (info : TypeInfo) (name : DottedName) :
    ∃ type, (setting.renderNamed info name).result = .ok type := by
  rw [renderNamed]
  split
  · split
    · exact ⟨_, rfl⟩
    · exact ⟨_, rfl⟩
  · exact ⟨_, rfl⟩

/-- What is written by the name of a handle is that name, in the form for its row. -/
theorem renderNamed_writes {type : TypeExpr} (hinfo : setting.image.typeInfo handle = .ok info)
    (hname : setting.writtenName handle info = .ok name)
    (htype : (setting.renderNamed info name).result = .ok type) :
    setting.WritesName handle type := by
  have hnamed := namedAs_of_writtenName hinfo hname
  have hinterface := Image.isInterface_iff hinfo
  rw [renderNamed] at htype
  by_cases hbit : info.isInterface
  · rw [if_pos hbit] at htype
    by_cases hmanaged : setting.policy.makes .managedInterfaces
    · rw [if_pos hmanaged] at htype
      cases htype
      exact .reference (hinterface.mpr hbit) hmanaged hnamed
    · rw [if_neg hmanaged] at htype
      cases htype
      exact .pointer (hinterface.mpr hbit) hmanaged hnamed
  · rw [if_neg hbit] at htype
    cases htype
    exact .plain (fun hfound => hbit (hinterface.mp hfound)) hnamed

/-- A resolved handle is rendered whatever its name is. -/
theorem renderResolved_ok (setting : RenderSetting) (info : TypeInfo) (name : DottedName) :
    ∃ type, (setting.renderResolved info name).result = .ok type := by
  by_cases hobject : setting.isObject info.name
  · rw [renderResolved_of_object hobject]
    exact ⟨_, rfl⟩
  cases hsubstitute : setting.substitute? info.name with
  | some substitute =>
      rw [renderResolved_of_substituted hobject hsubstitute]
      exact ⟨_, rfl⟩
  | none =>
      rw [renderResolved_of_kept hobject hsubstitute]
      exact setting.renderNamed_ok info name

/-- A handle that fails requests and tells nothing. -/
theorem renderHandle_of_error {error : ProjectionError}
    (hresult : (setting.renderHandle handle).result = .error error) :
    setting.renderHandle handle = .failed error := by
  rcases setting.renderHandle_cases handle with
    ⟨-, failure, hfailed⟩ | ⟨-, info, name, -, -, hresolved⟩
  · rw [hfailed] at hresult ⊢
    exact congrArg Rendering.failed (Except.error.inj hresult)
  · obtain ⟨type, htype⟩ := setting.renderResolved_ok info name
    rw [hresolved, htype] at hresult
    cases hresult

end RenderSetting

end TypeProjection

import TypeProjection.Proofs.Projection.LeafRendering

/-!
# The account of a rendering

A rendering sends requests while it goes on, and may still fail.  This file settles
when it fails and what it sends: nothing if it fails, and otherwise one request, for
the type that stands at the leaf, exactly if that type is written under its own name.
With a request it is that name which is written, and without one a replacement.
-/

namespace TypeProjection

open TypeProjection.Metadata TypeProjection.Source

namespace RenderSetting

variable (setting : RenderSetting)

/-- A type of that simple name is written under its own name: it is no managed
object and has no substitute that the policy enables. -/
structure KeepsName (name : String) : Prop where
  object : ¬ (setting.policy.makes .managedInterfaces ∧ name ∈ objectNames)
  builtin : ¬ setting.builtin.contains name
  marshaled : ¬ (setting.policy.makes .marshaledSubstitutes ∧ setting.marshaled.contains name)

variable {setting}

theorem keepsName_iff {name : String} :
    setting.KeepsName name ↔ ¬ setting.isObject name ∧ setting.substitute? name = none := by
  rw [isObject_iff, substitute?_eq_none_iff]
  constructor
  · intro hkeeps
    exact ⟨hkeeps.object, hkeeps.builtin, hkeeps.marshaled⟩
  · intro hkeeps
    exact ⟨hkeeps.1, hkeeps.2.1, hkeeps.2.2⟩

/-! ## Leaves -/

/-- What may be written in place of a name of metadata: the managed object or a
substitute, each where the policy asks for it. -/
def Replaces (setting : RenderSetting) (name : String) (type : TypeExpr) : Prop :=
  (setting.policy.makes .managedInterfaces ∧ name ∈ objectNames) ∧ type = managedObject ∨
    setting.builtin.get? name = some type ∨
    setting.policy.makes .marshaledSubstitutes ∧ setting.marshaled.get? name = some type

theorem replaces_of_substitute? {name : String} {substitute : TypeExpr}
    (hsubstitute : setting.substitute? name = some substitute) :
    setting.Replaces name substitute := by
  rcases substitute?_eq_some_iff.mp hsubstitute with hbuiltin | ⟨-, hmarshaled⟩
  · exact .inr (.inl hbuiltin)
  · exact .inr (.inr hmarshaled)

/-- A resolved handle is either requested and written by its name, or replaced. -/
theorem renderResolved_account {handle : Handle} {info : TypeInfo} {name : DottedName}
    (hinfo : setting.image.typeInfo handle = .ok info)
    (hname : setting.writtenName handle info = .ok name) :
    ∃ type, (setting.renderResolved info name).result = .ok type ∧
      (setting.KeepsName info.name ∧
          (setting.renderResolved info name).requests = [info.request] ∧
          setting.WritesName handle type ∨
        ¬ setting.KeepsName info.name ∧
          (setting.renderResolved info name).requests = [] ∧
          setting.Replaces info.name type) := by
  rw [keepsName_iff]
  by_cases hobject : setting.isObject info.name
  · rw [renderResolved_of_object hobject]
    have hreplaces : setting.Replaces info.name managedObject :=
      .inl ⟨isObject_iff.mp hobject, rfl⟩
    exact ⟨managedObject, rfl, .inr ⟨fun hkeeps => hkeeps.1 hobject, rfl, hreplaces⟩⟩
  cases hsubstitute : setting.substitute? info.name with
  | some substitute =>
      rw [renderResolved_of_substituted hobject hsubstitute]
      exact ⟨substitute, rfl, .inr ⟨by simp, rfl, replaces_of_substitute? hsubstitute⟩⟩
  | none =>
      rw [renderResolved_of_kept hobject hsubstitute]
      obtain ⟨type, htype⟩ := setting.renderNamed_ok info name
      exact ⟨type, htype, .inl ⟨⟨hobject, rfl⟩, renderNamed_requests info name,
        renderNamed_writes hinfo hname htype⟩⟩

end RenderSetting

/-! ## Descriptors -/

namespace Descriptor

/-- Puts the arrays and pointers of a descriptor around a type. -/
def around : Descriptor → TypeExpr → TypeExpr
  | primitive _, type => type
  | named _, type => type
  | array element dimensions, type => .arrayOf (element.around type) dimensions.sizes
  | pointer element, type => .pointerTo (element.around type)

/-- Arrays and pointers are written around the leaf and request nothing. -/
theorem render_leaf (setting : RenderSetting) (descriptor : Descriptor) :
    (descriptor.render setting).requests = (descriptor.leaf.render setting).requests ∧
      (descriptor.render setting).result =
        (descriptor.leaf.render setting).result.map descriptor.around := by
  induction descriptor with
  | primitive code => exact ⟨rfl, rfl⟩
  | named handle =>
      have haround : (named handle).around = id := rfl
      rw [haround, Except.map_id]
      exact ⟨rfl, rfl⟩
  | array element dimensions ih =>
      refine ⟨ih.1, ?_⟩
      change (element.render setting).result.map _ = (element.leaf.render setting).result.map _
      rw [ih.2]
      cases (element.leaf.render setting).result <;> rfl
  | pointer element ih =>
      refine ⟨ih.1, ?_⟩
      change (element.render setting).result.map _ = (element.leaf.render setting).result.map _
      rw [ih.2]
      cases (element.leaf.render setting).result <;> rfl

/-- Only a handle at the leaf fails. -/
theorem render_error_iff {setting : RenderSetting} {descriptor : Descriptor}
    {error : ProjectionError} :
    (descriptor.render setting).result = .error error ↔
      ∃ handle, descriptor.leaf = .named handle ∧
        (setting.renderHandle handle).result = .error error := by
  rw [(render_leaf setting descriptor).2]
  rcases descriptor.leaf_cases with ⟨code, hleaf⟩ | ⟨handle, hleaf⟩
  · rw [hleaf]
    constructor
    · intro hfails
      cases hfails
    · rintro ⟨handle, hnamed, -⟩
      cases hnamed
  · rw [hleaf]
    simp only [named.injEq, exists_eq_left']
    change (setting.renderHandle handle).result.map _ = _ ↔ _
    cases (setting.renderHandle handle).result with
    | error failure =>
        exact ⟨fun hfails => congrArg Except.error (Except.error.inj hfails),
          fun hfails => congrArg Except.error (Except.error.inj hfails)⟩
    | ok type => exact ⟨nofun, nofun⟩

/-- A rendering succeeds exactly if all that is looked up for the leaf is found. -/
theorem render_ok_iff {setting : RenderSetting} {descriptor : Descriptor} :
    (∃ type, (descriptor.render setting).result = .ok type) ↔
      ∀ handle, descriptor.leaf = .named handle → setting.Resolves handle := by
  rw [(render_leaf setting descriptor).2]
  rcases descriptor.leaf_cases with ⟨code, hleaf⟩ | ⟨handle, hleaf⟩
  · rw [hleaf]
    refine ⟨fun _ handle hnamed => ?_, fun _ => ⟨_, rfl⟩⟩
    cases hnamed
  · rw [hleaf]
    simp only [named.injEq, forall_eq']
    change (∃ type, (setting.renderHandle handle).result.map _ = .ok type) ↔ _
    rcases setting.renderHandle_cases handle with
      ⟨hunresolved, error, hfailed⟩ | ⟨hresolves, info, name, -, -, hresolved⟩
    · rw [hfailed]
      refine ⟨?_, fun hresolves => absurd hresolves hunresolved⟩
      rintro ⟨type, htype⟩
      cases htype
    · obtain ⟨type, htype⟩ := setting.renderResolved_ok info name
      rw [hresolved, htype]
      exact ⟨fun _ => hresolves, fun _ => ⟨_, rfl⟩⟩

/-- What fails requests nothing. -/
theorem requests_of_error {setting : RenderSetting} {descriptor : Descriptor}
    {error : ProjectionError} (herror : (descriptor.render setting).result = .error error) :
    (descriptor.render setting).requests = [] := by
  obtain ⟨handle, hleaf, hfails⟩ := render_error_iff.mp herror
  rw [(render_leaf setting descriptor).1, hleaf]
  exact congrArg Rendering.requests (RenderSetting.renderHandle_of_error hfails)

/-- The account of a rendering. -/
structure Accounted (setting : RenderSetting) (descriptor : Descriptor)
    (rendering : Rendering) : Prop where
  /-- It succeeds exactly if all that is looked up for the leaf is found. -/
  resolved : (∃ type, rendering.result = .ok type) ↔
    ∀ handle, descriptor.leaf = .named handle → setting.Resolves handle
  /-- What fails requests nothing. -/
  failed : ∀ error, rendering.result = .error error → rendering.requests = []
  /-- What succeeds requests at most one type, and one exactly if the leaf is a handle
  whose simple name is kept. -/
  succeeded : ∀ type, rendering.result = .ok type →
    rendering.requests.length ≤ 1 ∧
      (rendering.requests.length = 1 ↔
        ∃ handle name, descriptor.leaf = .named handle ∧
          setting.image.simpleName handle = .ok name ∧ setting.KeepsName name)
  /-- A request is for the row of the leaf. -/
  requested : ∀ request ∈ rendering.requests,
    ∃ handle, descriptor.leaf = .named handle ∧ request.Names handle
  /-- Names with a substitute that is always used request nothing. -/
  builtin : ∀ handle name, descriptor.leaf = .named handle →
    setting.image.simpleName handle = .ok name → setting.builtin.contains name →
      rendering.requests = []
  /-- With a request, the name of the requested type is written at the leaf. -/
  named : ∀ handle type, descriptor.leaf = .named handle →
    rendering.result = .ok type → rendering.requests ≠ [] →
      ∃ request written, rendering.requests = [request] ∧ request.Names handle ∧
        type = descriptor.around written ∧ setting.WritesName handle written
  /-- Without a request, only replacements are written for a handle; so every name of
  metadata that is written was requested. -/
  replaced : ∀ handle type, descriptor.leaf = .named handle →
    rendering.result = .ok type → rendering.requests = [] →
      ∃ name written, setting.image.simpleName handle = .ok name ∧
        type = descriptor.around written ∧ setting.Replaces name written
  /-- A primitive type is written as such and has no name of metadata. -/
  primitive : ∀ code, descriptor.leaf = .primitive code →
    rendering.result =
      .ok (descriptor.around (code.typeExpr (setting.policy.makes .nativeWidth)))

section

variable {setting : RenderSetting} {descriptor : Descriptor} {rendering : Rendering}
variable {handle : Handle} {name : String} {written : TypeExpr}
variable (hresolved : (∃ type, rendering.result = .ok type) ↔
  ∀ handle, descriptor.leaf = .named handle → setting.Resolves handle)

include hresolved

theorem accounted_of_error {error : ProjectionError} (hleaf : descriptor.leaf = .named handle)
    (hresult : rendering.result = .error error) (hrequests : rendering.requests = []) :
    Accounted setting descriptor rendering where
  resolved := hresolved
  failed _ _ := hrequests
  succeeded type htype := by cases hresult.symm.trans htype
  requested := by
    rw [hrequests]
    exact List.forall_mem_nil _
  builtin _ _ _ _ _ := hrequests
  named _ type _ htype := by cases hresult.symm.trans htype
  replaced _ type _ htype := by cases hresult.symm.trans htype
  primitive code hprimitive := by cases hleaf.symm.trans hprimitive

theorem accounted_of_primitive {code : Signature.Primitive}
    (hleaf : descriptor.leaf = .primitive code)
    (hresult : rendering.result =
      .ok (descriptor.around (code.typeExpr (setting.policy.makes .nativeWidth))))
    (hrequests : rendering.requests = []) : Accounted setting descriptor rendering where
  resolved := hresolved
  failed _ _ := hrequests
  succeeded _ _ := by
    rw [hrequests]
    refine ⟨Nat.zero_le 1, fun hlength => absurd hlength Nat.zero_ne_one, ?_⟩
    rintro ⟨handle, name, hnamed, -⟩
    cases hleaf.symm.trans hnamed
  requested := by
    rw [hrequests]
    exact List.forall_mem_nil _
  builtin _ _ _ _ _ := hrequests
  named handle type hnamed := by cases hleaf.symm.trans hnamed
  replaced handle type hnamed := by cases hleaf.symm.trans hnamed
  primitive other hother := by
    cases hleaf.symm.trans hother
    exact hresult

theorem accounted_of_kept {request : Request} (hleaf : descriptor.leaf = .named handle)
    (hname : setting.image.simpleName handle = .ok name) (hkeeps : setting.KeepsName name)
    (hrequest : request.Names handle) (hwritten : setting.WritesName handle written)
    (hresult : rendering.result = .ok (descriptor.around written))
    (hrequests : rendering.requests = [request]) :
    Accounted setting descriptor rendering where
  resolved := hresolved
  failed error herror := by cases hresult.symm.trans herror
  succeeded _ _ := by
    rw [hrequests]
    exact ⟨Nat.le_refl 1, fun _ => ⟨handle, name, hleaf, hname, hkeeps⟩, fun _ => rfl⟩
  requested := by
    rw [hrequests]
    exact List.forall_mem_singleton.mpr ⟨handle, hleaf, hrequest⟩
  builtin other otherName hother hotherName hbuiltin := by
    cases hleaf.symm.trans hother
    cases hname.symm.trans hotherName
    exact absurd hbuiltin hkeeps.builtin
  named other type hother htype _ := by
    cases hleaf.symm.trans hother
    cases hresult.symm.trans htype
    exact ⟨request, written, hrequests, hrequest, rfl, hwritten⟩
  replaced _ _ _ _ hnone := by cases hrequests.symm.trans hnone
  primitive code hprimitive := by cases hleaf.symm.trans hprimitive

theorem accounted_of_replaced (hleaf : descriptor.leaf = .named handle)
    (hname : setting.image.simpleName handle = .ok name) (hkeeps : ¬ setting.KeepsName name)
    (hwritten : setting.Replaces name written)
    (hresult : rendering.result = .ok (descriptor.around written))
    (hrequests : rendering.requests = []) : Accounted setting descriptor rendering where
  resolved := hresolved
  failed _ _ := hrequests
  succeeded _ _ := by
    rw [hrequests]
    refine ⟨Nat.zero_le 1, fun hlength => absurd hlength Nat.zero_ne_one, ?_⟩
    rintro ⟨other, otherName, hother, hotherName, hotherKeeps⟩
    cases hleaf.symm.trans hother
    cases hname.symm.trans hotherName
    exact absurd hotherKeeps hkeeps
  requested := by
    rw [hrequests]
    exact List.forall_mem_nil _
  builtin _ _ _ _ _ := hrequests
  named _ _ _ _ hsome := absurd hrequests hsome
  replaced other type hother htype _ := by
    cases hleaf.symm.trans hother
    cases hresult.symm.trans htype
    exact ⟨name, written, hname, rfl, hwritten⟩
  primitive code hprimitive := by cases hleaf.symm.trans hprimitive

end

/-- Every rendering keeps its accounts, whatever the descriptor, the metadata, the
substitutes and the policy are. -/
theorem render_accounted (setting : RenderSetting) (descriptor : Descriptor) :
    Accounted setting descriptor (descriptor.render setting) := by
  obtain ⟨hrequests, hresult⟩ := render_leaf setting descriptor
  rcases descriptor.leaf_cases with ⟨code, hleaf⟩ | ⟨handle, hleaf⟩
  · rw [hleaf] at hrequests hresult
    exact accounted_of_primitive render_ok_iff hleaf hresult hrequests
  · rw [hleaf] at hrequests hresult
    change _ = (setting.renderHandle handle).requests at hrequests
    change _ = (setting.renderHandle handle).result.map _ at hresult
    -- A handle fails in a look-up, keeps its name, or is replaced.
    rcases setting.renderHandle_cases handle with
      ⟨-, error, hfailed⟩ | ⟨-, info, name, hinfo, hname, hresolved⟩
    · rw [hfailed] at hrequests hresult
      exact accounted_of_error render_ok_iff hleaf hresult hrequests
    obtain ⟨hsimple, hrequest⟩ := Image.typeInfo_eq_ok hinfo
    obtain ⟨type, htype, haccount⟩ := RenderSetting.renderResolved_account hinfo hname
    rw [hresolved] at hrequests hresult
    rw [htype] at hresult
    rcases haccount with ⟨hkeeps, hone, hwrites⟩ | ⟨hkeeps, hnone, hreplaces⟩
    · exact accounted_of_kept render_ok_iff hleaf hsimple hkeeps hrequest hwrites hresult
        (hrequests.trans hone)
    · exact accounted_of_replaced render_ok_iff hleaf hsimple hkeeps hreplaces hresult
        (hrequests.trans hnone)

end Descriptor

end TypeProjection

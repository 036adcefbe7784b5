import TypeProjection.Proofs.Descriptor.RoundTrip
import TypeProjection.Proofs.Projection.Orthogonality

/-!
# When a rendering fails

Rendering a handle looks its row up three times, each time in its own way: for what is
rendered, for the simple name and for the chain of a qualified name.  The three agree on
every error, so a rendering fails with exactly the error of the name that it writes,
whatever would be written in place of that name.  A descriptor from a signature holds no
handle of another kind than definitions and references, so it never fails because of
the kind.
-/

namespace TypeProjection

open TypeProjection.Metadata TypeProjection.Source TypeProjection.Signature

/-! ## The three look-ups of a row -/

namespace Metadata.Image

variable {image : Image} {handle : Handle} {error : ProjectionError}

/-- A simple name is the name of the first link, and dangles without one. -/
theorem simpleName_eq (image : Image) {kind : Kind}
    (hkind : kind = .typeDefinition ∨ kind = .typeReference) (handle : TypedHandle kind) :
    image.simpleName ⟨kind, handle.row⟩ =
      (image.link? kind handle).elim (.error (.dangling handle.toHandle))
        fun link => .ok link.name := by
  rcases hkind with rfl | rfl
  · simp only [simpleName, Request.ofHandle?, link?]
    cases image.definition? handle with
    | none => rfl
    | some row => rfl
  · simp only [simpleName, Request.ofHandle?, link?]
    cases image.reference? handle with
    | none => rfl
    | some row => rfl

theorem simpleName_of_unrecognized (image : Image) (handle : Handle)
    (hkind : ¬ (handle.kind = .typeDefinition ∨ handle.kind = .typeReference)) :
    image.simpleName handle = .error (.unrecognizedKind handle.kind) := by
  obtain ⟨kind, row⟩ := handle
  cases kind with
  | typeDefinition => exact absurd (.inl rfl) hkind
  | typeReference => exact absurd (.inr rfl) hkind
  | _ => rfl

/-- What rendering reads from a row has the simple name or fails like it, if the row fits
into a token.  A larger row is dangling as it is for rendering, and by its low 24 bits
for the simple name. -/
theorem simpleName_eq_typeInfo (image : Image) {handle : Handle} (hrow : handle.row ≤ maxRow) :
    image.simpleName handle = (image.typeInfo handle).map TypeInfo.name := by
  obtain ⟨kind, row⟩ := handle
  have hhandle : (⟨row⟩ : TypedHandle kind).toHandle = ⟨kind, row⟩ := Handle.ofRow_eq kind hrow
  cases kind with
  | typeDefinition =>
      simp only [simpleName, typeInfo, Request.ofHandle?]
      cases image.definition? ⟨row⟩ with
      | none =>
          rw [hhandle]
          rfl
      | some definition => rfl
  | typeReference =>
      simp only [simpleName, typeInfo, Request.ofHandle?]
      cases image.reference? ⟨row⟩ with
      | none =>
          rw [hhandle]
          rfl
      | some reference => rfl
  | _ => rfl

/-- Without a simple name there is no qualified name, for the same reason. -/
theorem qualifiedName_of_simpleName_error (hname : image.simpleName handle = .error error) :
    image.qualifiedName handle = .error error := by
  obtain ⟨kind, row⟩ := handle
  by_cases hkind : kind = .typeDefinition ∨ kind = .typeReference
  · rw [image.simpleName_eq hkind ⟨row⟩] at hname
    rw [image.qualifiedName_eq hkind ⟨row⟩]
    cases hlink : image.link? kind ⟨row⟩ with
    | some link =>
        rw [hlink] at hname
        cases hname
    | none =>
        rw [hlink] at hname
        rw [Enclosure.of, Enclosure.climb_unresolved List.not_mem_nil hlink]
        exact congrArg Except.error (Except.error.inj hname)
  · rw [image.simpleName_of_unrecognized _ hkind] at hname
    rw [image.qualifiedName_of_unrecognized _ hkind]
    exact congrArg Except.error (Except.error.inj hname)

/-- A definition or a reference is never of an unrecognized kind. -/
theorem simpleName_recognized (image : Image) {kind other : Kind}
    (hkind : kind = .typeDefinition ∨ kind = .typeReference) (handle : TypedHandle kind) :
    image.simpleName ⟨kind, handle.row⟩ ≠ .error (.unrecognizedKind other) := by
  rw [image.simpleName_eq hkind handle]
  cases image.link? kind handle with
  | none => exact nofun
  | some link => exact nofun

theorem qualifiedName_recognized (image : Image) {kind other : Kind}
    (hkind : kind = .typeDefinition ∨ kind = .typeReference) (handle : TypedHandle kind) :
    image.qualifiedName ⟨kind, handle.row⟩ ≠ .error (.unrecognizedKind other) := by
  rw [image.qualifiedName_eq hkind handle]
  cases (Enclosure.of (image.link? kind) handle).name? with
  | error link => exact nofun
  | ok name => exact nofun

end Metadata.Image

/-! ## Handles -/

namespace RenderSetting

variable {setting : RenderSetting} {handle : Handle} {error : ProjectionError}

/-- The name that the policy asks for cannot be found, because of an error. -/
def Unnamed (setting : RenderSetting) (handle : Handle) (error : ProjectionError) : Prop :=
  if setting.policy.makes .qualifiedNames then setting.image.qualifiedName handle = .error error
  else setting.image.simpleName handle = .error error

theorem Unnamed.unique {other : ProjectionError} (hunnamed : setting.Unnamed handle error)
    (hother : setting.Unnamed handle other) : error = other := by
  rw [Unnamed] at hunnamed hother
  by_cases hqualified : setting.policy.makes .qualifiedNames
  · rw [if_pos hqualified] at hunnamed hother
    exact Except.error.inj (hunnamed.symm.trans hother)
  · rw [if_neg hqualified] at hunnamed hother
    exact Except.error.inj (hunnamed.symm.trans hother)

/-- Where no row is found, either name fails with the error of the row. -/
theorem unnamed_of_unresolved (hrow : handle.row ≤ maxRow)
    (hinfo : setting.image.typeInfo handle = .error error) : setting.Unnamed handle error := by
  have hsimple : setting.image.simpleName handle = .error error := by
    rw [setting.image.simpleName_eq_typeInfo hrow, hinfo]
    rfl
  rw [Unnamed]
  by_cases hqualified : setting.policy.makes .qualifiedNames
  · rw [if_pos hqualified]
    exact Image.qualifiedName_of_simpleName_error hsimple
  · rw [if_neg hqualified]
    exact hsimple

/-- Where the row is found, only a qualified name may fail. -/
theorem unnamed_iff_of_resolved {info : TypeInfo}
    (hinfo : setting.image.typeInfo handle = .ok info) :
    setting.Unnamed handle error ↔ setting.writtenName handle info = .error error := by
  rw [Unnamed, writtenName]
  by_cases hqualified : setting.policy.makes .qualifiedNames
  · rw [if_pos hqualified, if_pos hqualified]
  · rw [if_neg hqualified, if_neg hqualified]
    rw [(Image.typeInfo_eq_ok hinfo).1]
    constructor
    · intro hsimple
      cases hsimple
    · intro hwritten
      cases hwritten

/-- A handle fails with the error of its name, and for no other reason. -/
theorem renderHandle_error_iff (hrow : handle.row ≤ maxRow) :
    (setting.renderHandle handle).result = .error error ↔ setting.Unnamed handle error := by
  cases hinfo : setting.image.typeInfo handle with
  | error failure =>
      have hunnamed := unnamed_of_unresolved hrow hinfo
      rw [renderHandle_of_unresolved hinfo]
      constructor
      · intro hresult
        obtain rfl := Except.error.inj hresult
        exact hunnamed
      · intro hother
        exact congrArg Except.error (hunnamed.unique hother)
  | ok info =>
      rw [unnamed_iff_of_resolved hinfo]
      cases hname : setting.writtenName handle info with
      | error failure =>
          rw [renderHandle_of_unnamed hinfo hname]
          exact ⟨fun hresult => congrArg Except.error (Except.error.inj hresult),
            fun hwritten => congrArg Except.error (Except.error.inj hwritten)⟩
      | ok name =>
          obtain ⟨type, htype⟩ := setting.renderResolved_ok info name
          rw [renderHandle_of_resolved hinfo hname, htype]
          exact ⟨nofun, nofun⟩

/-- A definition or a reference is never unnamed because of its kind. -/
theorem not_unnamed_unrecognized {kind : Kind}
    (hkind : handle.kind = .typeDefinition ∨ handle.kind = .typeReference) :
    ¬ setting.Unnamed handle (.unrecognizedKind kind) := by
  rw [Unnamed]
  by_cases hqualified : setting.policy.makes .qualifiedNames
  · rw [if_pos hqualified]
    exact setting.image.qualifiedName_recognized hkind ⟨handle.row⟩
  · rw [if_neg hqualified]
    exact setting.image.simpleName_recognized hkind ⟨handle.row⟩

end RenderSetting

/-! ## Descriptors -/

namespace Descriptor

variable {setting : RenderSetting} {descriptor : Descriptor} {error : ProjectionError}

/-- The descriptor is decoded from some blob, as a type, as the type of a field or as one
of the types of a method. -/
inductive Decoded : Descriptor → Prop
  | type {blob : List UInt8} {descriptor : Descriptor} :
      decodeType blob = .ok descriptor → Decoded descriptor
  | field {blob : List UInt8} {descriptor : Descriptor} :
      decodeField blob = .ok descriptor → Decoded descriptor
  | method {blob : List UInt8} {signature : MethodSignature Descriptor}
      {descriptor : Descriptor} :
      decodeMethod blob = .ok signature → descriptor ∈ signature.types → Decoded descriptor

theorem Decoded.wellFormed (hdecoded : descriptor.Decoded) : descriptor.WellFormed := by
  cases hdecoded with
  | type hdecode => exact (decodeType_eq_ok_iff.mp hdecode).1
  | field hdecode => exact wellFormed_of_decodeField hdecode
  | method hdecode hmember => exact wellFormed_of_decodeMethod hdecode descriptor hmember

/-- A handle at a nameable leaf is a definition or a reference that fits into a token. -/
theorem Nameable.handle {handle : Handle} (hnameable : Nameable (.named handle)) :
    (handle.kind = .typeDefinition ∨ handle.kind = .typeReference) ∧ handle.row ≤ maxRow := by
  cases hnameable with
  | definition _ hrow => exact ⟨.inl rfl, hrow⟩
  | reference _ hrow => exact ⟨.inr rfl, hrow⟩

/-- The errors of renderings are the errors of names.  If the row of its leaf fits into a
token, a descriptor fails with an error exactly if the name that the policy asks for
fails with it; what would be written in place of the name hides no error.  A qualified
name ends in the simple name, and there is none where the simple name fails.  No
descriptor that is decoded fails because of the kind of a handle. -/
theorem render_fails_iff (setting : RenderSetting) :
    (∀ descriptor : Descriptor,
      (∀ handle, descriptor.leaf = .named handle → handle.row ≤ maxRow) →
        ∀ error, (descriptor.render setting).result = .error error ↔
          ∃ handle, descriptor.leaf = .named handle ∧
            if setting.policy.makes .qualifiedNames then
              setting.image.qualifiedName handle = .error error
            else setting.image.simpleName handle = .error error) ∧
    (∀ handle name, setting.image.qualifiedName handle = .ok name →
      ∃ simple, name.segments.getLast? = some simple ∧
        setting.image.simpleName handle = .ok simple) ∧
    (∀ handle error, setting.image.simpleName handle = .error error →
      setting.image.qualifiedName handle = .error error) ∧
    ∀ descriptor : Descriptor, descriptor.Decoded →
      ∀ kind, (descriptor.render setting).result ≠ .error (.unrecognizedKind kind) := by
  refine ⟨?_, ?_, ?_, ?_⟩
  · intro descriptor hrow error
    rw [render_error_iff]
    apply exists_congr
    intro handle
    apply and_congr_right
    intro hleaf
    exact RenderSetting.renderHandle_error_iff (hrow handle hleaf)
  · intro handle name hname
    refine ⟨name.leaf, ?_, (Image.qualifiedName_leaf hname).1⟩
    exact List.getLast?_concat
  · intro handle error hname
    exact Image.qualifiedName_of_simpleName_error hname
  · intro descriptor hdecoded kind hfails
    obtain ⟨handle, hleaf, hfails⟩ := render_error_iff.mp hfails
    have hnameable : Nameable (.named handle) := hleaf ▸ hdecoded.wellFormed.leaf
    obtain ⟨hkind, hrow⟩ := hnameable.handle
    have hunnamed := (RenderSetting.renderHandle_error_iff hrow).mp hfails
    exact RenderSetting.not_unnamed_unrecognized hkind hunnamed

/-- A definition with a substitute is nested in one that is missing.  Its qualified name
fails, and the substitute is not written. -/
theorem render_fails_iff_dangling :
    let registry := (Registry.empty.addNested ⟨99⟩ "POINT" ⟨0⟩).2
    ((named ⟨.typeDefinition, 1⟩).render
      ⟨registry.image, .builtin, .marshaled, ⟨0x08⟩⟩).result =
        .error (.dangling ⟨.typeDefinition, 99⟩) := by
  intro registry
  have hrow : ∀ handle, (named ⟨.typeDefinition, 1⟩).leaf = .named handle →
      handle.row ≤ maxRow := by
    intro handle hleaf
    obtain rfl := Descriptor.named.inj hleaf
    decide
  have hfails := (render_fails_iff ⟨registry.image, .builtin, .marshaled, ⟨0x08⟩⟩).1 _ hrow
  have hqualified : Policy.makes ⟨0x08⟩ .qualifiedNames := by decide
  apply (hfails _).mpr
  refine ⟨⟨.typeDefinition, 1⟩, rfl, ?_⟩
  rw [if_pos hqualified]
  have hinner : registry.image.link? .typeDefinition ⟨1⟩ = some ⟨"POINT", some ⟨99⟩⟩ := rfl
  have houter : registry.image.link? .typeDefinition ⟨99⟩ = none := rfl
  have hname := registry.image.qualifiedName_eq (.inl rfl) ⟨1⟩
  rw [Enclosure.of, Enclosure.climb_inside List.not_mem_nil hinner,
    Enclosure.climb_unresolved (by decide) houter] at hname
  exact hname

end Descriptor

end TypeProjection

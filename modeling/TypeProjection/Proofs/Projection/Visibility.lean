import TypeProjection.Proofs.Projection.Orthogonality

/-!
# What a rendering sees

Two settings are compared that agree on what a leaf is rendered from, and on nothing
else: the choices of the policy, what the row of the leaf says of its name and of
interfaces, the chain of the types that enclose it if names are qualified, and what the
tables that are asked have under its simple name.  Both settings give the same outcome,
so all the rest of the metadata, of the tables and of the policy stays out of sight.
-/

namespace TypeProjection

open TypeProjection.Metadata TypeProjection.Source

namespace Enclosure

variable {kind : Kind} {near far : TypedHandle kind → Option (Link kind)}

/-- A climb sees the links of the chain where it starts, and no other ones. -/
theorem climb_congr {passed : List (TypedHandle kind)} {distinct : passed.Nodup}
    {handle : TypedHandle kind}
    (hchain : ∀ steps ancestor, ancestor? near steps handle = some ancestor →
      near ancestor = far ancestor) :
    climb near passed distinct handle = climb far passed distinct handle := by
  fun_induction climb near passed distinct handle with
  | case1 passed distinct handle hpassed => exact (climb_repeated hpassed).symm
  | case2 passed distinct handle hfresh hlink =>
      have hfar : far handle = none := (hchain 0 handle rfl).symm.trans hlink
      exact (climb_unresolved hfresh hfar).symm
  | case3 passed distinct handle hfresh name hlink =>
      have hfar : far handle = some ⟨name, none⟩ := (hchain 0 handle rfl).symm.trans hlink
      exact (climb_outermost hfresh hfar).symm
  | case4 passed distinct handle hfresh name outer hlink ih =>
      have hfar : far handle = some ⟨name, some outer⟩ :=
        (hchain 0 handle rfl).symm.trans hlink
      -- The chain of the next handle is the rest of this one.
      have hrest := ih fun steps ancestor hreached =>
        hchain (steps + 1) ancestor ((ancestor?_succ hlink steps).trans hreached)
      rw [hrest]
      exact (climb_inside hfresh hfar).symm

end Enclosure

open Enclosure

/-- Where the chains of a handle agree, so do its qualified names. -/
theorem Metadata.Image.qualifiedName_congr {left right : Image} {handle : Handle}
    (hchain : ∀ steps ancestor,
      ancestor? (left.link? handle.kind) steps ⟨handle.row⟩ = some ancestor →
        left.link? handle.kind ancestor = right.link? handle.kind ancestor) :
    left.qualifiedName handle = right.qualifiedName handle := by
  obtain ⟨kind, row⟩ := handle
  by_cases hkind : kind = .typeDefinition ∨ kind = .typeReference
  · rw [left.qualifiedName_eq hkind ⟨row⟩, right.qualifiedName_eq hkind ⟨row⟩]
    rw [Enclosure.of, Enclosure.of, climb_congr hchain]
  · rw [left.qualifiedName_of_unrecognized _ hkind]
    rw [right.qualifiedName_of_unrecognized _ hkind]

/-- Of a definition, rendering reads the name and whether it is an interface. -/
theorem Metadata.Image.typeInfo_definition (image : Image) (row : UInt32) :
    image.typeInfo ⟨.typeDefinition, row⟩ =
      ((image.definition? ⟨row⟩).map fun found => (found.name, found.isInterface)).elim
        (.error (.dangling ⟨.typeDefinition, row⟩))
        fun seen => .ok ⟨seen.1, seen.2, .definition ⟨row⟩⟩ := by
  simp only [typeInfo, Request.ofHandle?]
  cases image.definition? ⟨row⟩ with
  | none => rfl
  | some found => rfl

/-- Of a reference, rendering reads the name. -/
theorem Metadata.Image.typeInfo_reference (image : Image) (row : UInt32) :
    image.typeInfo ⟨.typeReference, row⟩ =
      ((image.reference? ⟨row⟩).map Reference.name).elim
        (.error (.dangling ⟨.typeReference, row⟩))
        fun name => .ok ⟨name, false, .reference ⟨row⟩⟩ := by
  simp only [typeInfo, Request.ofHandle?]
  cases image.reference? ⟨row⟩ with
  | none => rfl
  | some found => rfl

namespace RenderSetting

/-- What a handle is rendered from is the same in both settings. -/
structure Agrees (left right : RenderSetting) (handle : Handle) : Prop where
  /-- Both have a definition with the same name that is an interface or is not, or both
  have none. -/
  definition : handle.kind = .typeDefinition →
    (left.image.definition? ⟨handle.row⟩).map (fun row => (row.name, row.isInterface)) =
      (right.image.definition? ⟨handle.row⟩).map fun row => (row.name, row.isInterface)
  /-- Both have a reference with the same name, or both have none. -/
  reference : handle.kind = .typeReference →
    (left.image.reference? ⟨handle.row⟩).map Reference.name =
      (right.image.reference? ⟨handle.row⟩).map Reference.name
  /-- If names are qualified, each handle of the chain names rows with the same name and
  the same link, or no row on either side. -/
  chain : left.policy.makes .qualifiedNames → ∀ steps ancestor,
    ancestor? (left.image.link? handle.kind) steps ⟨handle.row⟩ = some ancestor →
      left.image.link? handle.kind ancestor = right.image.link? handle.kind ancestor
  /-- Unless the leaf is written as an object, its simple name has the same substitute
  in the tables that are always used. -/
  builtin : ∀ name, left.image.simpleName handle = .ok name →
    ¬ (left.policy.makes .managedInterfaces ∧ name ∈ objectNames) →
      left.builtin.get? name = right.builtin.get? name
  /-- If it has none there and marshaled substitutes are used, then it has the same one
  in their tables. -/
  marshaled : ∀ name, left.image.simpleName handle = .ok name →
    ¬ (left.policy.makes .managedInterfaces ∧ name ∈ objectNames) →
      left.policy.makes .marshaledSubstitutes → left.builtin.get? name = none →
        left.marshaled.get? name = right.marshaled.get? name

namespace Agrees

variable {left right : RenderSetting} {handle : Handle} {info : TypeInfo}

/-- Both settings read the same from the row of the handle. -/
theorem typeInfo_eq (hagrees : left.Agrees right handle) :
    left.image.typeInfo handle = right.image.typeInfo handle := by
  obtain ⟨kind, row⟩ := handle
  cases kind with
  | typeDefinition =>
      rw [Image.typeInfo_definition, Image.typeInfo_definition]
      rw [hagrees.definition rfl]
  | typeReference =>
      rw [Image.typeInfo_reference, Image.typeInfo_reference]
      rw [hagrees.reference rfl]
  | _ => rfl

theorem writtenName_eq (hagrees : left.Agrees right handle)
    (hpolicy : left.policy.makes = right.policy.makes) (info : TypeInfo) :
    left.writtenName handle info = right.writtenName handle info := by
  rw [writtenName, writtenName]
  rw [← hpolicy]
  by_cases hqualified : left.policy.makes .qualifiedNames
  · rw [if_pos hqualified, if_pos hqualified]
    exact Image.qualifiedName_congr (hagrees.chain hqualified)
  · rw [if_neg hqualified, if_neg hqualified]

theorem substitute?_eq (hagrees : left.Agrees right handle)
    (hpolicy : left.policy.makes = right.policy.makes)
    (hinfo : left.image.typeInfo handle = .ok info) (hobject : ¬ left.isObject info.name) :
    left.substitute? info.name = right.substitute? info.name := by
  have hname := (Image.typeInfo_eq_ok hinfo).1
  rw [isObject_iff] at hobject
  have hbuiltin := hagrees.builtin info.name hname hobject
  rw [substitute?, substitute?]
  rw [← hbuiltin, ← hpolicy]
  cases hentry : left.builtin.get? info.name with
  | some substitute => rfl
  | none =>
      by_cases hmarshals : left.policy.makes .marshaledSubstitutes
      · have hmarshaled := hagrees.marshaled info.name hname hobject hmarshals hentry
        simp only [if_pos hmarshals, hmarshaled]
      · simp only [if_neg hmarshals]

theorem renderNamed_eq (hpolicy : left.policy.makes = right.policy.makes) :
    left.renderNamed = right.renderNamed := by
  funext info name
  rw [renderNamed, renderNamed]
  rw [hpolicy]

theorem renderResolved_eq (hagrees : left.Agrees right handle)
    (hpolicy : left.policy.makes = right.policy.makes)
    (hinfo : left.image.typeInfo handle = .ok info) (name : DottedName) :
    left.renderResolved info name = right.renderResolved info name := by
  have hsame : left.isObject info.name = right.isObject info.name := by
    rw [isObject, isObject, hpolicy]
  rw [renderResolved, renderResolved]
  rw [← hsame]
  by_cases hobject : left.isObject info.name
  · rw [if_pos hobject, if_pos hobject]
  · rw [if_neg hobject, if_neg hobject]
    rw [hagrees.substitute?_eq hpolicy hinfo hobject, renderNamed_eq hpolicy]

/-- A handle is rendered alike, whichever way it goes. -/
theorem renderHandle_eq (hagrees : left.Agrees right handle)
    (hpolicy : left.policy.makes = right.policy.makes) :
    left.renderHandle handle = right.renderHandle handle := by
  have hsame := hagrees.typeInfo_eq
  cases hinfo : left.image.typeInfo handle with
  | error error =>
      rw [renderHandle_of_unresolved hinfo, renderHandle_of_unresolved (hsame ▸ hinfo)]
  | ok info =>
      have hwritten := hagrees.writtenName_eq hpolicy info
      cases hname : left.writtenName handle info with
      | error error =>
          rw [renderHandle_of_unnamed hinfo hname,
            renderHandle_of_unnamed (hsame ▸ hinfo) (hwritten ▸ hname)]
      | ok name =>
          rw [renderHandle_of_resolved hinfo hname,
            renderHandle_of_resolved (hsame ▸ hinfo) (hwritten ▸ hname)]
          exact hagrees.renderResolved_eq hpolicy hinfo name

end Agrees

end RenderSetting

namespace Descriptor

/-- A rendering sees the choices of the policy and what its leaf is rendered from.
Settings that agree on these give the same result and the same requests, whatever
else they hold. -/
theorem outcome_eq_of_agrees {left right : RenderSetting} {descriptor : Descriptor}
    (hpolicy : ∀ choice, left.policy.makes choice = right.policy.makes choice)
    (hagrees : ∀ handle, descriptor.leaf = .named handle → left.Agrees right handle) :
    descriptor.outcome left = descriptor.outcome right := by
  rcases descriptor.leaf_cases with ⟨code, hleaf⟩ | ⟨handle, hleaf⟩
  · rw [outcome_primitive hleaf, outcome_primitive hleaf]
    rw [hpolicy .nativeWidth]
  · have hsame := (hagrees handle hleaf).renderHandle_eq (funext hpolicy)
    exact outcome_eq_of_renderHandle hleaf hsame

/-- Two nested definitions with the same name in outer ones with the same name.  Their
namespaces and attributes, an unrelated row, a table that is not asked, the entry for
the outer name and a bit of the policy without a meaning make no difference. -/
theorem outcome_eq_of_agrees_nested :
    let left := ((Registry.empty.addDefinition "Audio" "Outer" ⟨0⟩).2.addNested
      ⟨1⟩ "Inner" ⟨0⟩).2
    let right := (((Registry.empty.addDefinition "Video" "Outer" ⟨0x81⟩).2.addNested
      ⟨1⟩ "Inner" ⟨0x100⟩).2.addExternal "Video" "Inner").2
    (pointer (named ⟨.typeDefinition, 2⟩)).outcome ⟨left.image, .empty, .empty, ⟨0x08⟩⟩ =
      (pointer (named ⟨.typeDefinition, 2⟩)).outcome
        ⟨right.image, Substitutes.empty.insert "Outer" (.ofKeyword .long),
          Substitutes.empty.insert "Inner" (.ofKeyword .bool), ⟨0x88⟩⟩ := by
  intro left right
  have hpolicy (choice : Choice) : Policy.makes ⟨0x08⟩ choice = Policy.makes ⟨0x88⟩ choice := by
    cases choice <;> decide
  have hinterface : (TypeAttributes.union ⟨0⟩ .nestedPublic).isInterface =
      (TypeAttributes.union ⟨0x100⟩ .nestedPublic).isInterface := by
    decide
  apply outcome_eq_of_agrees hpolicy
  intro handle hleaf
  obtain rfl := Descriptor.named.inj hleaf
  have hname {name : String} (hfound : left.image.simpleName ⟨.typeDefinition, 2⟩ = .ok name) :
      "Inner" = name := Except.ok.inj hfound
  refine ⟨fun _ => ?_, nofun, ?_, ?_, ?_⟩
  · exact congrArg (fun isInterface => some ("Inner", isInterface)) hinterface
  · intro _ steps ancestor hreached
    match steps with
    | 0 =>
        obtain rfl := Option.some.inj hreached
        rfl
    | 1 =>
        obtain rfl := Option.some.inj hreached
        rfl
    | steps + 2 => cases hreached
  · intro name hfound _
    obtain rfl := hname hfound
    simp [Substitutes.get?, Substitutes.insert, Substitutes.empty]
  · intro name _ _ hmarshals
    have hunused : ¬ Policy.makes ⟨0x08⟩ .marshaledSubstitutes := by decide
    exact absurd hmarshals hunused

end Descriptor

end TypeProjection

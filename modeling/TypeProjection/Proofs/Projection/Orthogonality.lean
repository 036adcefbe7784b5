import TypeProjection.Proofs.Projection.Accounting
import TypeProjection.Proofs.Projection.Qualification

/-!
# The choices of a policy are orthogonal

Two renderings are compared that differ in one choice of the policy.  Each choice
changes what it is about and nothing else: native widths change the two pointer-sized
integers, marshaled substitutes the names that only their table knows, managed
interfaces the projected names and the interfaces that are written by their names, and
qualification the segments in front of a name.
-/

namespace TypeProjection

open TypeProjection.Metadata TypeProjection.Source

namespace RenderSetting

/-- The setting whose policy makes a choice or does not, and that is otherwise the
same. -/
def choosing (setting : RenderSetting) (choice : Choice) (enabled : Bool) : RenderSetting :=
  { setting with policy := setting.policy.set choice enabled }

variable {setting : RenderSetting} {choice : Choice} {enabled : Bool}

/-! ## What a choice leaves alone -/

@[simp]
theorem makes_choosing_self :
    (setting.choosing choice enabled).policy.makes choice = enabled :=
  setting.policy.makes_set_self choice enabled

theorem makes_choosing_of_ne {other : Choice} (hother : other ≠ choice) :
    (setting.choosing choice enabled).policy.makes other = setting.policy.makes other :=
  setting.policy.makes_set_of_ne hother enabled

theorem writtenName_choosing (hchoice : .qualifiedNames ≠ choice) :
    (setting.choosing choice enabled).writtenName = setting.writtenName := by
  funext handle info
  rw [writtenName, writtenName]
  rw [makes_choosing_of_ne hchoice]
  rfl

theorem substitute?_choosing (hchoice : .marshaledSubstitutes ≠ choice) :
    (setting.choosing choice enabled).substitute? = setting.substitute? := by
  funext name
  rw [substitute?, substitute?]
  rw [makes_choosing_of_ne hchoice]
  rfl

theorem substitute?_choosing_marshaled (setting : RenderSetting) (enabled : Bool)
    (name : String) :
    (setting.choosing .marshaledSubstitutes enabled).substitute? name =
      (setting.builtin.get? name).or
        (if enabled then setting.marshaled.get? name else none) := by
  rw [substitute?_eq, makes_choosing_self]
  rfl

theorem isObject_choosing (hchoice : .managedInterfaces ≠ choice) :
    (setting.choosing choice enabled).isObject = setting.isObject := by
  funext name
  rw [isObject, isObject]
  rw [makes_choosing_of_ne hchoice]

theorem renderNamed_choosing (hchoice : .managedInterfaces ≠ choice) :
    (setting.choosing choice enabled).renderNamed = setting.renderNamed := by
  funext info name
  rw [renderNamed, renderNamed]
  rw [makes_choosing_of_ne hchoice]

theorem renderResolved_choosing (hmarshaled : .marshaledSubstitutes ≠ choice)
    (hmanaged : .managedInterfaces ≠ choice) :
    (setting.choosing choice enabled).renderResolved = setting.renderResolved := by
  funext info name
  rw [renderResolved, renderResolved]
  rw [isObject_choosing hmanaged, substitute?_choosing hmarshaled,
    renderNamed_choosing hmanaged]

/-! ## Ways to render a handle -/

section

variable {handle : Handle} {info : TypeInfo} {name : DottedName}

/-- Marshaled substitutes change the rendering of a resolved handle only if their table
alone has its simple name. -/
theorem renderResolved_marshaled (setting : RenderSetting) (info : TypeInfo)
    (name : DottedName) :
    (setting.choosing .marshaledSubstitutes false).renderResolved info name =
        (setting.choosing .marshaledSubstitutes true).renderResolved info name ∨
      ∃ substitute, setting.marshaled.get? info.name = some substitute ∧
        ¬ setting.builtin.contains info.name ∧
        ¬ (setting.policy.makes .managedInterfaces ∧ info.name ∈ objectNames) := by
  -- Only the look-up of a substitute can differ.
  have hcongr (hsame : (setting.choosing .marshaledSubstitutes false).substitute? info.name =
        (setting.choosing .marshaledSubstitutes true).substitute? info.name) :
      (setting.choosing .marshaledSubstitutes false).renderResolved info name =
        (setting.choosing .marshaledSubstitutes true).renderResolved info name := by
    rw [renderResolved, renderResolved, hsame]
    rw [isObject_choosing (by decide), isObject_choosing (by decide),
      renderNamed_choosing (by decide), renderNamed_choosing (by decide)]
  rw [← isObject_iff, Substitutes.contains_eq_isSome]
  by_cases hobject : setting.isObject info.name
  · left
    rw [renderResolved_of_object (by rwa [isObject_choosing (by decide)]),
      renderResolved_of_object (by rwa [isObject_choosing (by decide)])]
  rw [substitute?_choosing_marshaled, substitute?_choosing_marshaled] at hcongr
  cases hbuiltin : setting.builtin.get? info.name with
  | some substitute =>
      rw [hbuiltin] at hcongr
      exact .inl (hcongr rfl)
  | none =>
      cases hmarshaled : setting.marshaled.get? info.name with
      | some substitute => exact .inr ⟨substitute, rfl, by simp, hobject⟩
      | none =>
          rw [hbuiltin, hmarshaled] at hcongr
          exact .inl (hcongr rfl)

theorem renderResolved_of_marshaled {substitute : TypeExpr}
    (hentry : setting.marshaled.get? info.name = some substitute)
    (hbuiltin : ¬ setting.builtin.contains info.name)
    (hobject : ¬ (setting.policy.makes .managedInterfaces ∧ info.name ∈ objectNames)) :
    (setting.choosing .marshaledSubstitutes true).renderResolved info name =
      ⟨.ok substitute, [], [.substituted info.name substitute]⟩ := by
  rw [Substitutes.contains_eq_isSome, Option.not_isSome_iff_eq_none] at hbuiltin
  rw [← isObject_iff] at hobject
  apply renderResolved_of_substituted
  · rwa [isObject_choosing (by decide)]
  · rw [substitute?_choosing_marshaled, hbuiltin, hentry]
    rfl

/-- A resolved handle that is neither written as an object nor an interface under its own
name does not depend on how interfaces are written. -/
theorem renderResolved_interfaces (setting : RenderSetting) {info : TypeInfo}
    {name : DottedName} (hobject : info.name ∉ objectNames)
    (hinterface : info.isInterface → setting.substitute? info.name ≠ none) (enabled : Bool) :
    (setting.choosing .managedInterfaces enabled).renderResolved info name =
      setting.renderResolved info name := by
  have hkept (other : RenderSetting) : ¬ other.isObject info.name :=
    fun h => hobject (isObject_iff.mp h).2
  have hsame : (setting.choosing .managedInterfaces enabled).substitute? info.name =
      setting.substitute? info.name := by
    rw [substitute?_choosing (by decide)]
  cases hsubstitute : setting.substitute? info.name with
  | some substitute =>
      rw [renderResolved_of_substituted (hkept _) hsubstitute,
        renderResolved_of_substituted (hkept _) (hsame.trans hsubstitute)]
  | none =>
      have hplain : ¬ info.isInterface := fun h => hinterface h hsubstitute
      rw [renderResolved_of_kept (hkept _) hsubstitute,
        renderResolved_of_kept (hkept _) (hsame.trans hsubstitute),
        renderNamed_of_plain hplain, renderNamed_of_plain hplain]

/-- Without a choice on qualification, the look-ups for a handle stay the same: they
fail in the same way, or find the same row and name. -/
theorem renderHandle_choosing (setting : RenderSetting) (choice : Choice)
    (hchoice : .qualifiedNames ≠ choice) (handle : Handle) :
    (∃ error, setting.renderHandle handle = .failed error ∧
      ∀ enabled, (setting.choosing choice enabled).renderHandle handle = .failed error) ∨
    ∃ info name, setting.image.typeInfo handle = .ok info ∧
      setting.renderHandle handle = setting.renderResolved info name ∧
      ∀ enabled, (setting.choosing choice enabled).renderHandle handle =
        (setting.choosing choice enabled).renderResolved info name := by
  cases hinfo : setting.image.typeInfo handle with
  | error error =>
      exact .inl ⟨error, renderHandle_of_unresolved hinfo,
        fun enabled => renderHandle_of_unresolved hinfo⟩
  | ok info =>
      have hsame (enabled : Bool) : (setting.choosing choice enabled).writtenName handle info =
          setting.writtenName handle info := by
        rw [writtenName_choosing hchoice]
      cases hname : setting.writtenName handle info with
      | error error =>
          exact .inl ⟨error, renderHandle_of_unnamed hinfo hname,
            fun enabled => renderHandle_of_unnamed hinfo ((hsame enabled).trans hname)⟩
      | ok name =>
          exact .inr ⟨info, name, rfl, renderHandle_of_resolved hinfo hname,
            fun enabled => renderHandle_of_resolved hinfo ((hsame enabled).trans hname)⟩

end

end RenderSetting

/-! ## Qualification -/

namespace Enclosure

variable {kind : Kind} {link? : TypedHandle kind → Option (Link kind)}
  {handle : TypedHandle kind} {name : DottedName}

/-- The last segment of a spelled name is the name of the row itself. -/
theorem Spells.leaf (hspells : Spells link? handle name) :
    (link? handle).map Link.name = some name.leaf := by
  have hfirst := hspells.segments 0
  have hsegments : name.segments.reverse = name.leaf :: name.enclosing.reverse :=
    List.reverse_concat
  rw [hsegments] at hfirst
  exact hfirst.symm

/-- Where links are read from rows, a climb that gives a name has found its first row. -/
theorem row_of_name? {Row : Type} {row? : TypedHandle kind → Option Row}
    {link : Row → Link kind}
    (hname : (of (fun handle => (row? handle).map link) handle).name? = .ok name) :
    ∃ row, row? handle = some row ∧ (link row).name = name.leaf ∧ name.isGlobal = false := by
  have hsettles := climb_settles (fun handle => (row? handle).map link) [] List.nodup_nil handle
  rw [show (climb _ [] List.nodup_nil handle).name? = .ok name from hname] at hsettles
  cases hsettles with
  | named hspells =>
      have hleaf := hspells.leaf
      rw [Option.map_map] at hleaf
      obtain ⟨row, hrow, hleaf⟩ := Option.map_eq_some_iff.mp hleaf
      exact ⟨row, hrow, hleaf, hspells.isGlobal⟩

end Enclosure

/-- A qualified name ends in the simple name and is not global. -/
theorem Metadata.Image.qualifiedName_leaf {image : Image} {handle : Handle}
    {name : DottedName} (hname : image.qualifiedName handle = .ok name) :
    image.simpleName handle = .ok name.leaf ∧ name.isGlobal = false := by
  rw [qualifiedName] at hname
  rw [simpleName]
  cases hrequest : Request.ofHandle? handle with
  | none => simp [hrequest] at hname
  | some request =>
      cases request with
      | definition definition =>
          simp only [hrequest] at hname ⊢
          obtain ⟨row, hrow, hleaf, hglobal⟩ :=
            Enclosure.row_of_name? (mapError_eq_ok_iff.mp hname)
          rw [hrow, ← hleaf]
          exact ⟨rfl, hglobal⟩
      | reference reference =>
          simp only [hrequest] at hname ⊢
          obtain ⟨row, hrow, hleaf, hglobal⟩ :=
            Enclosure.row_of_name? (mapError_eq_ok_iff.mp hname)
          rw [hrow, ← hleaf]
          exact ⟨rfl, hglobal⟩

namespace Source

/-- The name without the segments that enclose it. -/
def DottedName.unqualified (name : DottedName) : DottedName :=
  { name with enclosing := [] }

namespace TypeExpr

def unqualified : TypeExpr → TypeExpr
  | keyword marks word => keyword marks word
  | named marks name => named marks name.unqualified
  | pointer marks pointee => pointer marks pointee.unqualified
  | array marks element sizes => array marks element.unqualified sizes

theorem unqualified_withMarks (type : TypeExpr) (added : Marks) :
    (type.withMarks added).unqualified = type.unqualified.withMarks added := by
  cases type <;> rfl

end TypeExpr

end Source

/-- Arrays and pointers have no name of their own. -/
theorem Descriptor.unqualified_around (descriptor : Descriptor) (type : TypeExpr) :
    (descriptor.around type).unqualified = descriptor.around type.unqualified := by
  induction descriptor with
  | primitive code => rfl
  | named handle => rfl
  | array element dimensions ih => exact congrArg (TypeExpr.arrayOf · dimensions.sizes) ih
  | pointer element ih => exact congrArg TypeExpr.pointerTo ih

namespace RenderSetting

variable (setting : RenderSetting)

/-- Names that agree up to the enclosing segments are written alike up to these. -/
theorem renderNamed_unqualified (info : TypeInfo) {name other : DottedName}
    (hname : name.unqualified = other.unqualified) :
    (setting.renderNamed info name).result.map TypeExpr.unqualified =
      (setting.renderNamed info other).result.map TypeExpr.unqualified := by
  have htype : (TypeExpr.ofName name).unqualified = (TypeExpr.ofName other).unqualified :=
    congrArg (TypeExpr.named .none) hname
  rw [renderNamed, renderNamed]
  by_cases hinterface : info.isInterface
  · rw [if_pos hinterface, if_pos hinterface]
    by_cases hmanaged : setting.policy.makes .managedInterfaces
    · rw [if_pos hmanaged, if_pos hmanaged]
      change Except.ok _ = Except.ok _
      rw [TypeExpr.unqualified_withMarks, TypeExpr.unqualified_withMarks, htype]
    · rw [if_neg hmanaged, if_neg hmanaged]
      exact congrArg (fun type => Except.ok (TypeExpr.pointerTo type)) htype
  · rw [if_neg hinterface, if_neg hinterface]
    exact congrArg Except.ok htype

/-- Only the enclosing segments of what is written depend on those of the name. -/
theorem renderResolved_unqualified (info : TypeInfo) {name other : DottedName}
    (hname : name.unqualified = other.unqualified) :
    (setting.renderResolved info name).requests =
        (setting.renderResolved info other).requests ∧
      (setting.renderResolved info name).result.map TypeExpr.unqualified =
        (setting.renderResolved info other).result.map TypeExpr.unqualified := by
  rw [renderResolved, renderResolved]
  by_cases hobject : setting.isObject info.name
  · rw [if_pos hobject, if_pos hobject]
    exact ⟨rfl, rfl⟩
  rw [if_neg hobject, if_neg hobject]
  cases setting.substitute? info.name with
  | some substitute => exact ⟨rfl, rfl⟩
  | none =>
      refine ⟨?_, setting.renderNamed_unqualified info hname⟩
      rw [renderNamed_requests, renderNamed_requests]

/-- With qualified names, a handle fails as it does with simple names, fails on its own,
or is rendered by a name that ends in the simple one. -/
theorem renderHandle_qualified (handle : Handle) :
    let off := setting.choosing .qualifiedNames false
    let on := setting.choosing .qualifiedNames true
    (∃ error, off.renderHandle handle = .failed error ∧
      on.renderHandle handle = .failed error) ∨
    ∃ info, off.renderHandle handle = setting.renderResolved info (.simple info.name) ∧
      ((∃ error, on.renderHandle handle = .failed error) ∨
        ∃ name : DottedName, name.unqualified = (DottedName.simple info.name).unqualified ∧
          on.renderHandle handle = setting.renderResolved info name) := by
  intro off on
  have hresolved (enabled : Bool) : (setting.choosing .qualifiedNames enabled).renderResolved =
      setting.renderResolved :=
    renderResolved_choosing (by decide) (by decide)
  cases hinfo : setting.image.typeInfo handle with
  | error error =>
      exact .inl ⟨error, renderHandle_of_unresolved hinfo, renderHandle_of_unresolved hinfo⟩
  | ok info =>
      right
      have hoff : off.writtenName handle info = .ok (.simple info.name) := by
        rw [writtenName, if_neg (by simp [off])]
      have hon : on.writtenName handle info = setting.image.qualifiedName handle := by
        rw [writtenName, if_pos (by simp [on])]
        rfl
      refine ⟨info, ?_, ?_⟩
      · rw [← hresolved false]
        exact renderHandle_of_resolved hinfo hoff
      cases hname : setting.image.qualifiedName handle with
      | error error => exact .inl ⟨error, renderHandle_of_unnamed hinfo (hon.trans hname)⟩
      | ok name =>
          right
          obtain ⟨hleaf, hglobal⟩ := Image.qualifiedName_leaf hname
          have hsame := (Image.typeInfo_eq_ok hinfo).1.symm.trans hleaf
          refine ⟨name, ?_, ?_⟩
          · rw [DottedName.unqualified, hglobal, ← Except.ok.inj hsame]
            rfl
          · rw [← hresolved true]
            exact renderHandle_of_resolved hinfo (hon.trans hname)

end RenderSetting

/-! ## Outcomes -/

/-- What is compared of two renderings: the result and the requests. -/
def Rendering.outcome (rendering : Rendering) :
    Except ProjectionError TypeExpr × List Request :=
  (rendering.result, rendering.requests)

namespace Descriptor

variable (setting : RenderSetting) (descriptor : Descriptor)

def outcome : Except ProjectionError TypeExpr × List Request :=
  (descriptor.render setting).outcome

/-- The leaf is a handle that renders without error, and its simple name has a substitute
in the table of marshaled substitutes alone and is not written as an object. -/
def Marshals (substitute : TypeExpr) : Prop :=
  ∃ handle name, descriptor.leaf = .named handle ∧
    (∃ type, (descriptor.render setting).result = .ok type) ∧
    setting.image.simpleName handle = .ok name ∧
    setting.marshaled.get? name = some substitute ∧
    ¬ setting.builtin.contains name ∧
    ¬ (setting.policy.makes .managedInterfaces ∧ name ∈ objectNames)

/-- The leaf resolves to a row with one of the names that may be written as objects, or
to an interface definition without a substitute that the policy enables. -/
def MeetsInterface : Prop :=
  ∃ handle name, descriptor.leaf = .named handle ∧
    setting.image.simpleName handle = .ok name ∧
    (name ∈ objectNames ∨
      setting.image.IsInterface handle ∧ ¬ setting.builtin.contains name ∧
        ¬ (setting.policy.makes .marshaledSubstitutes ∧ setting.marshaled.contains name))

/-- What each choice of a policy changes, and what it leaves alone. -/
structure Orthogonal : Prop where
  /-- Native widths change exactly the pointer-sized integers. -/
  nativeWidth :
    descriptor.outcome (setting.choosing .nativeWidth false) ≠
        descriptor.outcome (setting.choosing .nativeWidth true) ↔
      descriptor.leaf = .primitive .intPtr ∨ descriptor.leaf = .primitive .uintPtr
  /-- Without a name to marshal, marshaled substitutes change nothing. -/
  marshaled_eq : (¬ ∃ substitute, Marshals setting descriptor substitute) →
    descriptor.outcome (setting.choosing .marshaledSubstitutes false) =
      descriptor.outcome (setting.choosing .marshaledSubstitutes true)
  /-- A name to marshal is replaced by its substitute and requests nothing. -/
  marshaled_substitute : ∀ substitute, Marshals setting descriptor substitute →
    descriptor.outcome (setting.choosing .marshaledSubstitutes true) =
      (.ok (descriptor.around substitute), [])
  /-- Managed interfaces change no error. -/
  interfaces_error : ∀ error,
    (descriptor.outcome (setting.choosing .managedInterfaces false)).1 = .error error ↔
      (descriptor.outcome (setting.choosing .managedInterfaces true)).1 = .error error
  /-- Without an object or an interface to write, managed interfaces change nothing. -/
  interfaces_eq : ¬ MeetsInterface setting descriptor →
    descriptor.outcome (setting.choosing .managedInterfaces false) =
      descriptor.outcome (setting.choosing .managedInterfaces true)
  /-- What fails with simple names fails alike with qualified names. -/
  qualified_error : ∀ error,
    (descriptor.outcome (setting.choosing .qualifiedNames false)).1 = .error error →
      (descriptor.outcome (setting.choosing .qualifiedNames true)).1 = .error error
  /-- What succeeds with qualified names succeeds with simple names, by the same requests
  and up to the segments that enclose the written name. -/
  qualified_ok : ∀ type,
    (descriptor.outcome (setting.choosing .qualifiedNames true)).1 = .ok type →
      ∃ simple,
        (descriptor.outcome (setting.choosing .qualifiedNames false)).1 = .ok simple ∧
        (descriptor.outcome (setting.choosing .qualifiedNames false)).2 =
          (descriptor.outcome (setting.choosing .qualifiedNames true)).2 ∧
        simple.unqualified = type.unqualified

variable {setting descriptor}

theorem outcome_primitive {code : Signature.Primitive}
    (hleaf : descriptor.leaf = .primitive code) :
    descriptor.outcome setting =
      (.ok (descriptor.around (code.typeExpr (setting.policy.makes .nativeWidth))), []) := by
  obtain ⟨hrequests, hresult⟩ := render_leaf setting descriptor
  rw [hleaf] at hrequests hresult
  exact Prod.ext hresult hrequests

theorem outcome_named {handle : Handle} (hleaf : descriptor.leaf = .named handle) :
    descriptor.outcome setting =
      ((setting.renderHandle handle).result.map descriptor.around,
        (setting.renderHandle handle).requests) := by
  obtain ⟨hrequests, hresult⟩ := render_leaf setting descriptor
  rw [hleaf] at hrequests hresult
  exact Prod.ext hresult hrequests

/-- Different types stay different inside the same arrays and pointers. -/
theorem around_inj {type other : TypeExpr} :
    descriptor.around type = descriptor.around other ↔ type = other := by
  induction descriptor with
  | primitive code => exact Iff.rfl
  | named handle => exact Iff.rfl
  | array element dimensions ih =>
      rw [← ih]
      simp [around, TypeExpr.arrayOf]
  | pointer element ih =>
      rw [← ih]
      simp [around, TypeExpr.pointerTo]

theorem typeExpr_ne_iff {code : Signature.Primitive} :
    code.typeExpr false ≠ code.typeExpr true ↔ code = .intPtr ∨ code = .uintPtr := by
  cases code <;> decide

/-- Other choices than the one on widths change no primitive type. -/
theorem outcome_choosing_primitive {choice : Choice} (hchoice : .nativeWidth ≠ choice)
    {code : Signature.Primitive} (hleaf : descriptor.leaf = .primitive code) (enabled : Bool) :
    descriptor.outcome (setting.choosing choice enabled) = descriptor.outcome setting := by
  rw [outcome_primitive hleaf, outcome_primitive hleaf]
  rw [RenderSetting.makes_choosing_of_ne hchoice]

theorem outcome_eq_of_renderHandle {handle : Handle} {other : RenderSetting}
    (hleaf : descriptor.leaf = .named handle)
    (hsame : setting.renderHandle handle = other.renderHandle handle) :
    descriptor.outcome setting = descriptor.outcome other := by
  rw [outcome_named hleaf, outcome_named hleaf, hsame]

theorem outcome_of_failed {handle : Handle} {error : ProjectionError}
    (hleaf : descriptor.leaf = .named handle)
    (hfails : setting.renderHandle handle = .failed error) :
    descriptor.outcome setting = (.error error, []) := by
  rw [outcome_named hleaf, hfails]
  rfl

theorem outcome_of_resolved {handle : Handle} {other : RenderSetting} {info : TypeInfo}
    {name : DottedName} (hleaf : descriptor.leaf = .named handle)
    (hresolved : setting.renderHandle handle = other.renderResolved info name) :
    ∃ type, (other.renderResolved info name).result = .ok type ∧
      descriptor.outcome setting =
        (.ok (descriptor.around type), (other.renderResolved info name).requests) := by
  obtain ⟨type, htype⟩ := other.renderResolved_ok info name
  refine ⟨type, htype, ?_⟩
  rw [outcome_named hleaf, hresolved, htype]
  rfl

/-! ## Native widths -/

theorem nativeWidth_iff :
    descriptor.outcome (setting.choosing .nativeWidth false) ≠
        descriptor.outcome (setting.choosing .nativeWidth true) ↔
      descriptor.leaf = .primitive .intPtr ∨ descriptor.leaf = .primitive .uintPtr := by
  rcases descriptor.leaf_cases with ⟨code, hleaf⟩ | ⟨handle, hleaf⟩
  · rw [outcome_primitive hleaf, outcome_primitive hleaf, hleaf]
    rw [RenderSetting.makes_choosing_self, RenderSetting.makes_choosing_self]
    simp only [ne_eq, Prod.mk.injEq, Except.ok.injEq, around_inj, and_true, primitive.injEq]
    exact typeExpr_ne_iff
  · rw [hleaf]
    have hsame (enabled : Bool) : (setting.choosing .nativeWidth enabled).renderHandle handle =
        setting.renderHandle handle := by
      rcases setting.renderHandle_choosing .nativeWidth (by decide) handle with
        ⟨error, hfails, hfailsToo⟩ | ⟨info, name, -, hresolved, hresolvedToo⟩
      · rw [hfails, hfailsToo]
      · rw [hresolved, hresolvedToo,
          RenderSetting.renderResolved_choosing (by decide) (by decide)]
    have hequal := outcome_eq_of_renderHandle hleaf ((hsame false).trans (hsame true).symm)
    simp [hequal]

/-! ## Marshaled substitutes -/

theorem marshaled_eq (hnone : ¬ ∃ substitute, Marshals setting descriptor substitute) :
    descriptor.outcome (setting.choosing .marshaledSubstitutes false) =
      descriptor.outcome (setting.choosing .marshaledSubstitutes true) := by
  rcases descriptor.leaf_cases with ⟨code, hleaf⟩ | ⟨handle, hleaf⟩
  · rw [outcome_choosing_primitive (by decide) hleaf,
      outcome_choosing_primitive (by decide) hleaf]
  apply outcome_eq_of_renderHandle hleaf
  rcases setting.renderHandle_choosing .marshaledSubstitutes (by decide) handle with
    ⟨error, -, hfails⟩ | ⟨info, name, hinfo, hrenders, hresolved⟩
  · rw [hfails, hfails]
  rw [hresolved, hresolved]
  rcases setting.renderResolved_marshaled info name with hsame | ⟨substitute, hmarshals⟩
  · exact hsame
  · obtain ⟨hentry, hbuiltin, hobject⟩ := hmarshals
    obtain ⟨type, -, houtcome⟩ := outcome_of_resolved hleaf hrenders
    exact absurd ⟨substitute, handle, info.name, hleaf, ⟨_, congrArg Prod.fst houtcome⟩,
      (Image.typeInfo_eq_ok hinfo).1, hentry, hbuiltin, hobject⟩ hnone

theorem marshaled_substitute {substitute : TypeExpr}
    (hmarshals : Marshals setting descriptor substitute) :
    descriptor.outcome (setting.choosing .marshaledSubstitutes true) =
      (.ok (descriptor.around substitute), []) := by
  obtain ⟨handle, name, hleaf, hok, hname, hentry, hbuiltin, hobject⟩ := hmarshals
  rcases setting.renderHandle_choosing .marshaledSubstitutes (by decide) handle with
    ⟨error, hfails, -⟩ | ⟨info, written, hinfo, -, hresolved⟩
  · obtain ⟨type, htype⟩ := hok
    cases htype.symm.trans (congrArg Prod.fst (outcome_of_failed hleaf hfails))
  · have hsame := hname.symm.trans (Image.typeInfo_eq_ok hinfo).1
    obtain rfl := Except.ok.inj hsame
    rw [outcome_named hleaf, hresolved,
      RenderSetting.renderResolved_of_marshaled hentry hbuiltin hobject]
    rfl

/-! ## Managed interfaces -/

theorem interfaces_error (error : ProjectionError) :
    (descriptor.outcome (setting.choosing .managedInterfaces false)).1 = .error error ↔
      (descriptor.outcome (setting.choosing .managedInterfaces true)).1 = .error error := by
  rcases descriptor.leaf_cases with ⟨code, hleaf⟩ | ⟨handle, hleaf⟩
  · rw [outcome_choosing_primitive (by decide) hleaf,
      outcome_choosing_primitive (by decide) hleaf]
  rcases setting.renderHandle_choosing .managedInterfaces (by decide) handle with
    ⟨failure, -, hfails⟩ | ⟨info, name, -, -, hresolved⟩
  · rw [outcome_of_failed hleaf (hfails false), outcome_of_failed hleaf (hfails true)]
  · have hnever (enabled : Bool) :
        (descriptor.outcome (setting.choosing .managedInterfaces enabled)).1 ≠ .error error := by
      obtain ⟨type, -, houtcome⟩ := outcome_of_resolved hleaf (hresolved enabled)
      rw [houtcome]
      exact nofun
    exact iff_of_false (hnever false) (hnever true)

theorem interfaces_eq (hnone : ¬ MeetsInterface setting descriptor) :
    descriptor.outcome (setting.choosing .managedInterfaces false) =
      descriptor.outcome (setting.choosing .managedInterfaces true) := by
  rcases descriptor.leaf_cases with ⟨code, hleaf⟩ | ⟨handle, hleaf⟩
  · rw [outcome_choosing_primitive (by decide) hleaf,
      outcome_choosing_primitive (by decide) hleaf]
  apply outcome_eq_of_renderHandle hleaf
  rcases setting.renderHandle_choosing .managedInterfaces (by decide) handle with
    ⟨error, -, hfails⟩ | ⟨info, name, hinfo, -, hresolved⟩
  · rw [hfails, hfails]
  rw [hresolved, hresolved]
  have hname := (Image.typeInfo_eq_ok hinfo).1
  have hobject : info.name ∉ objectNames := by
    intro hobject
    exact hnone ⟨handle, info.name, hleaf, hname, .inl hobject⟩
  have hinterface : info.isInterface → setting.substitute? info.name ≠ none := by
    intro hinterface hsubstitute
    obtain ⟨hbuiltin, hmarshaled⟩ := RenderSetting.substitute?_eq_none_iff.mp hsubstitute
    exact hnone ⟨handle, info.name, hleaf, hname,
      .inr ⟨(Image.isInterface_iff hinfo).mpr hinterface, hbuiltin, hmarshaled⟩⟩
  rw [setting.renderResolved_interfaces hobject hinterface,
    setting.renderResolved_interfaces hobject hinterface]

/-! ## Qualified names -/

theorem qualified_error {error : ProjectionError}
    (herror : (descriptor.outcome (setting.choosing .qualifiedNames false)).1 = .error error) :
    (descriptor.outcome (setting.choosing .qualifiedNames true)).1 = .error error := by
  rcases descriptor.leaf_cases with ⟨code, hleaf⟩ | ⟨handle, hleaf⟩
  · rw [outcome_choosing_primitive (by decide) hleaf] at herror ⊢
    exact herror
  rcases setting.renderHandle_qualified handle with ⟨failure, hoff, hon⟩ | ⟨info, hoff, -⟩
  · rw [outcome_of_failed hleaf hoff] at herror
    rw [outcome_of_failed hleaf hon]
    exact herror
  · obtain ⟨type, -, houtcome⟩ := outcome_of_resolved hleaf hoff
    rw [houtcome] at herror
    cases herror

theorem qualified_ok {type : TypeExpr}
    (hok : (descriptor.outcome (setting.choosing .qualifiedNames true)).1 = .ok type) :
    ∃ simple,
      (descriptor.outcome (setting.choosing .qualifiedNames false)).1 = .ok simple ∧
      (descriptor.outcome (setting.choosing .qualifiedNames false)).2 =
        (descriptor.outcome (setting.choosing .qualifiedNames true)).2 ∧
      simple.unqualified = type.unqualified := by
  rcases descriptor.leaf_cases with ⟨code, hleaf⟩ | ⟨handle, hleaf⟩
  · refine ⟨type, ?_, ?_, rfl⟩
    · rw [outcome_choosing_primitive (by decide) hleaf] at hok ⊢
      exact hok
    · rw [outcome_choosing_primitive (by decide) hleaf,
        outcome_choosing_primitive (by decide) hleaf]
  rcases setting.renderHandle_qualified handle with
    ⟨error, -, hon⟩ | ⟨info, hoff, ⟨error, hon⟩ | ⟨name, hname, hon⟩⟩
  · rw [outcome_of_failed hleaf hon] at hok
    cases hok
  · rw [outcome_of_failed hleaf hon] at hok
    cases hok
  · obtain ⟨plain, hplain, houtcomeOff⟩ := outcome_of_resolved hleaf hoff
    obtain ⟨written, hwritten, houtcomeOn⟩ := outcome_of_resolved hleaf hon
    obtain ⟨hrequests, hresults⟩ := setting.renderResolved_unqualified info hname
    rw [houtcomeOn] at hok
    rw [houtcomeOff, houtcomeOn]
    rw [hplain, hwritten] at hresults
    have hunqualified : written.unqualified = plain.unqualified := Except.ok.inj hresults
    refine ⟨descriptor.around plain, rfl, hrequests.symm, ?_⟩
    rw [← Except.ok.inj hok, unqualified_around, unqualified_around, hunqualified]

/-- The choices of a policy are orthogonal, whatever the descriptor, the metadata, the
substitutes and the other choices are. -/
theorem render_orthogonal (setting : RenderSetting) (descriptor : Descriptor) :
    Orthogonal setting descriptor where
  nativeWidth := nativeWidth_iff
  marshaled_eq := marshaled_eq
  marshaled_substitute _ := marshaled_substitute
  interfaces_error := interfaces_error
  interfaces_eq := interfaces_eq
  qualified_error _ := qualified_error
  qualified_ok _ := qualified_ok

end Descriptor

end TypeProjection

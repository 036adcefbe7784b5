import TypeProjection.Proofs.Metadata.Refinement
import TypeProjection.Proofs.Projection.Failure

/-!
# Growing registries keep their answers

Rows may link to rows that are added only later, so what is missing today may be there
tomorrow.  Everything else is settled for good: a row that was read keeps its place, and
a chain that was climbed to its end or back into itself has no missing row on its way.
A rendering that succeeds sends the same requests and writes the same type when more
rows are added.
-/

namespace TypeProjection

open TypeProjection.Metadata TypeProjection.Source

/-! ## Chains -/

namespace Enclosure

variable {kind : Kind} {near far : TypedHandle kind → Option (Link kind)}

/-- Where links are only added, a climb takes the same way or had stopped at a handle
without a link that has one now. -/
theorem climb_grows (hlinks : ∀ known link, near known = some link → far known = some link)
    {passed : List (TypedHandle kind)} {distinct : passed.Nodup} {handle : TypedHandle kind} :
    climb far passed distinct handle = climb near passed distinct handle ∨
      ∃ missing, (climb near passed distinct handle).name? = .error missing ∧
        near missing = none ∧ far missing ≠ none := by
  fun_induction climb near passed distinct handle with
  | case1 passed distinct handle hpassed => exact .inl (climb_repeated hpassed)
  | case2 passed distinct handle hfresh hlink =>
      by_cases hfar : far handle = none
      · exact .inl (climb_unresolved hfresh hfar)
      · exact .inr ⟨handle, rfl, hlink, hfar⟩
  | case3 passed distinct handle hfresh name hlink =>
      exact .inl (climb_outermost hfresh (hlinks handle _ hlink))
  | case4 passed distinct handle hfresh name outer hlink ih =>
      rcases ih with hsame | ⟨missing, hname, hnear, hfar⟩
      · left
        rw [climb_inside hfresh (hlinks handle _ hlink), hsame]
      · refine .inr ⟨missing, ?_, hnear, hfar⟩
        rw [name?, hname]
        rfl

/-- A chain that goes on without end has a link at each of its handles. -/
theorem exists_link_of_endless {link? : TypedHandle kind → Option (Link kind)}
    {handle ancestor : TypedHandle kind} {steps : Nat}
    (hendless : ∀ steps, ancestor? link? steps handle ≠ none)
    (hreached : ancestor? link? steps handle = some ancestor) :
    ∃ link, link? ancestor = some link := by
  cases hlink : link? ancestor with
  | some link => exact ⟨link, rfl⟩
  | none =>
      have hnext : ancestor? link? (steps + 1) handle = none := by
        rw [ancestor?_last, hreached, Option.bind_some, hlink]
        rfl
      exact absurd hnext (hendless (steps + 1))

end Enclosure

open Enclosure

namespace Metadata.Registry

variable {registry later : Registry}

/-! ## Rows -/

/-- Only definitions and references have rows. -/
theorem HasRow.kind_cases {handle : Handle} (hrow : registry.HasRow handle) :
    handle.kind = .typeDefinition ∨ handle.kind = .typeReference := by
  obtain ⟨kind, row⟩ := handle
  cases kind with
  | typeDefinition => exact .inl rfl
  | typeReference => exact .inr rfl
  | _ => exact absurd (Nat.le_trans hrow.1 hrow.2) (Nat.not_succ_le_zero 0)

/-- There is a link exactly from the handles with a row. -/
theorem link?_eq_none_iff {kind : Kind} {handle : TypedHandle kind} :
    registry.image.link? kind handle = none ↔ ¬ registry.HasRow ⟨kind, handle.row⟩ := by
  cases kind with
  | typeDefinition => exact Option.map_eq_none_iff.trans lookup_eq_none_iff
  | typeReference => exact Option.map_eq_none_iff.trans lookup_eq_none_iff
  | _ =>
      constructor
      · intro _ hrow
        exact absurd hrow.kind_cases (by simp)
      · intro _
        rfl

theorem Extends.link? {kind : Kind} {handle : TypedHandle kind} {link : Link kind}
    (hlater : later.Extends registry) (hlink : registry.image.link? kind handle = some link) :
    later.image.link? kind handle = some link := by
  cases kind with
  | typeDefinition =>
      obtain ⟨row, hrow, hread⟩ := Option.map_eq_some_iff.mp hlink
      exact Option.map_eq_some_iff.mpr ⟨row, hlater.definition? hrow, hread⟩
  | typeReference =>
      obtain ⟨row, hrow, hread⟩ := Option.map_eq_some_iff.mp hlink
      exact Option.map_eq_some_iff.mpr ⟨row, hlater.reference? hrow, hread⟩
  | _ => cases hlink

/-- The numbers of the rows that are there fit into tokens. -/
theorem HasRow.row_le {handle : Handle} (hrow : registry.HasRow handle)
    (hfits : registry.Fits) : handle.row ≤ maxRow := by
  have hbound : handle.row.toNat < 2 ^ 24 :=
    Nat.lt_of_le_of_lt hrow.2 (hfits.rowCount_lt handle.kind)
  exact UInt32.le_iff_toNat_le.mpr (Nat.le_of_lt_succ hbound)

/-! ## Names -/

/-- The result stays, unless it is the error of a handle that has no row.  In particular
every success stays. -/
def Persists {Value : Type} (registry : Registry) (before after : Except ProjectionError Value) :
    Prop :=
  after = before ∨
    ∃ missing, before = .error (.dangling missing) ∧ ¬ registry.HasRow missing

/-- A handle without a link that has one later is named as it is. -/
theorem missing_of_link? {kind : Kind} {missing : TypedHandle kind} (hfits : later.Fits)
    (hmissing : registry.image.link? kind missing = none)
    (hadded : later.image.link? kind missing ≠ none) :
    ¬ registry.HasRow missing.toHandle := by
  rw [Ne, link?_eq_none_iff, Classical.not_not] at hadded
  have hhandle : missing.toHandle = ⟨kind, missing.row⟩ :=
    Handle.ofRow_eq kind (hadded.row_le hfits)
  rw [hhandle]
  exact link?_eq_none_iff.mp hmissing

theorem typeInfo_persists (hlater : later.Extends registry) (handle : Handle) :
    registry.Persists (registry.image.typeInfo handle) (later.image.typeInfo handle) := by
  obtain ⟨kind, row⟩ := handle
  cases kind with
  | typeDefinition =>
      simp only [Image.typeInfo, Request.ofHandle?]
      cases hrow : registry.image.definition? ⟨row⟩ with
      | none => exact .inr ⟨_, rfl, lookup_eq_none_iff.mp hrow⟩
      | some found =>
          have hkept : later.image.definition? ⟨row⟩ = some found := hlater.definition? hrow
          left
          rw [hkept]
  | typeReference =>
      simp only [Image.typeInfo, Request.ofHandle?]
      cases hrow : registry.image.reference? ⟨row⟩ with
      | none => exact .inr ⟨_, rfl, lookup_eq_none_iff.mp hrow⟩
      | some found =>
          have hkept : later.image.reference? ⟨row⟩ = some found := hlater.reference? hrow
          left
          rw [hkept]
  | _ => exact .inl rfl

section

variable (hlater : later.Extends registry) (hfits : later.Fits) (handle : Handle)
include hlater hfits

theorem simpleName_persists :
    registry.Persists (registry.image.simpleName handle) (later.image.simpleName handle) := by
  by_cases hkind : handle.kind = .typeDefinition ∨ handle.kind = .typeReference
  · rw [registry.image.simpleName_eq hkind ⟨handle.row⟩]
    rw [later.image.simpleName_eq hkind ⟨handle.row⟩]
    cases hlink : registry.image.link? handle.kind ⟨handle.row⟩ with
    | some link =>
        left
        rw [hlater.link? hlink]
    | none =>
        by_cases hadded : later.image.link? handle.kind ⟨handle.row⟩ = none
        · left
          rw [hadded]
        · exact .inr ⟨_, rfl, missing_of_link? hfits hlink hadded⟩
  · left
    rw [registry.image.simpleName_of_unrecognized handle hkind]
    exact later.image.simpleName_of_unrecognized handle hkind

theorem qualifiedName_persists :
    registry.Persists (registry.image.qualifiedName handle)
      (later.image.qualifiedName handle) := by
  by_cases hkind : handle.kind = .typeDefinition ∨ handle.kind = .typeReference
  · rw [registry.image.qualifiedName_eq hkind ⟨handle.row⟩]
    rw [later.image.qualifiedName_eq hkind ⟨handle.row⟩]
    rw [Enclosure.of, Enclosure.of]
    have hlinks (known : TypedHandle handle.kind) (link : Link handle.kind)
        (hlink : registry.image.link? handle.kind known = some link) :
        later.image.link? handle.kind known = some link := hlater.link? hlink
    rcases climb_grows hlinks with hsame | ⟨missing, hname, hmissing, hadded⟩
    · left
      rw [hsame]
    · right
      refine ⟨missing.toHandle, ?_, missing_of_link? hfits hmissing hadded⟩
      rw [hname]
      rfl
  · left
    rw [registry.image.qualifiedName_of_unrecognized handle hkind]
    exact later.image.qualifiedName_of_unrecognized handle hkind

end

/-- The qualified name of a handle whose chain goes on without end fails at a handle that
has a row. -/
theorem qualifiedName_of_endless (hfits : registry.Fits) {kind : Kind}
    {handle : TypedHandle kind}
    (hendless : ∀ steps, ancestor? (registry.image.link? kind) steps handle ≠ none) :
    ∃ repeated, registry.image.qualifiedName ⟨kind, handle.row⟩ = .error (.dangling repeated) ∧
      registry.HasRow repeated := by
  have hrows (steps : Nat) (ancestor : TypedHandle kind)
      (hreached : ancestor? (registry.image.link? kind) steps handle = some ancestor) :
      registry.HasRow ⟨kind, ancestor.row⟩ := by
    obtain ⟨link, hlink⟩ := exists_link_of_endless hendless hreached
    exact registry.row_of_link? hlink
  have hqualifies : Qualifies (registry.image.link? kind) handle
      (registry.image.qualifiedName ⟨kind, handle.row⟩) := by
    rw [registry.image.qualifiedName_eq (hrows 0 handle rfl).kind_cases handle]
    exact qualifies_of_settles (climb_settles _ [] List.nodup_nil handle)
      fun steps ancestor hreached => (hrows steps ancestor hreached).row_le hfits
  have hfails : ¬ ∃ name, registry.image.qualifiedName ⟨kind, handle.row⟩ = .ok name := by
    intro hname
    obtain ⟨steps, hend⟩ := (hqualifies.succeeds.mp hname).2
    exact hendless steps hend
  obtain ⟨steps, ancestor, hfaults, -, herror⟩ := hqualifies.stopped hfails
  exact ⟨⟨kind, ancestor.row⟩, herror, hrows steps ancestor hfaults.1⟩

end Metadata.Registry

/-! ## Renderings -/

namespace RenderSetting

/-- The same tables and policy with the rows of a registry. -/
def reading (setting : RenderSetting) (registry : Registry) : RenderSetting :=
  { setting with image := registry.image }

theorem reading_policy (setting : RenderSetting) (registry : Registry) :
    (setting.reading registry).policy = setting.policy :=
  rfl

variable {registry later : Registry}
variable (hlater : later.Extends registry) (hfits : later.Fits)
variable (setting : RenderSetting) (handle : Handle)
include hlater hfits

theorem writtenName_persists (info : TypeInfo) :
    registry.Persists ((setting.reading registry).writtenName handle info)
      ((setting.reading later).writtenName handle info) := by
  rw [writtenName, writtenName]
  rw [reading_policy, reading_policy]
  by_cases hqualified : setting.policy.makes .qualifiedNames
  · rw [if_pos hqualified, if_pos hqualified]
    exact Registry.qualifiedName_persists hlater hfits handle
  · rw [if_neg hqualified, if_neg hqualified]
    exact .inl rfl

/-- A handle is rendered alike, unless a row is missing. -/
theorem renderHandle_persists :
    (setting.reading later).renderHandle handle = (setting.reading registry).renderHandle handle ∨
      ∃ missing, (setting.reading registry).renderHandle handle = .failed (.dangling missing) ∧
        ¬ registry.HasRow missing := by
  rcases Registry.typeInfo_persists hlater handle with hinfos | ⟨missing, hinfo, hmissing⟩
  case inr => exact .inr ⟨missing, renderHandle_of_unresolved hinfo, hmissing⟩
  cases hinfo : registry.image.typeInfo handle with
  | error error =>
      left
      have hfailed : (setting.reading registry).renderHandle handle = .failed error :=
        renderHandle_of_unresolved hinfo
      rw [hfailed]
      exact renderHandle_of_unresolved (hinfos.trans hinfo)
  | ok info =>
      rcases setting.writtenName_persists hlater hfits handle info with
        hnames | ⟨missing, hname, hmissing⟩
      case inr => exact .inr ⟨missing, renderHandle_of_unnamed hinfo hname, hmissing⟩
      left
      cases hname : (setting.reading registry).writtenName handle info with
      | error error =>
          rw [renderHandle_of_unnamed hinfo hname]
          exact renderHandle_of_unnamed (hinfos.trans hinfo) (hnames.trans hname)
      | ok name =>
          rw [renderHandle_of_resolved hinfo hname]
          -- What is written of a resolved row does not look at rows again.
          exact renderHandle_of_resolved (hinfos.trans hinfo) (hnames.trans hname)

end RenderSetting

/-- A descriptor is rendered alike, unless a row is missing. -/
theorem Descriptor.outcome_persists {registry later : Registry}
    (hlater : later.Extends registry) (hfits : later.Fits) (setting : RenderSetting)
    (descriptor : Descriptor) :
    descriptor.outcome (setting.reading later) = descriptor.outcome (setting.reading registry) ∨
      ∃ missing, descriptor.outcome (setting.reading registry) =
        (.error (.dangling missing), []) ∧ ¬ registry.HasRow missing := by
  rcases descriptor.leaf_cases with ⟨code, hleaf⟩ | ⟨handle, hleaf⟩
  · left
    rw [outcome_primitive hleaf, outcome_primitive hleaf]
    rfl
  · rcases setting.renderHandle_persists hlater hfits handle with hsame | ⟨missing, hfails, hmissing⟩
    · exact .inl (outcome_eq_of_renderHandle hleaf hsame)
    · exact .inr ⟨missing, outcome_of_failed hleaf hfails, hmissing⟩

/-! ## Registries -/

namespace Metadata.Registry

/-- What stays of the answers of a registry while it grows. -/
structure Settled (registry later : Registry) : Prop where
  simpleName : ∀ handle, registry.Persists (registry.image.simpleName handle)
    (later.image.simpleName handle)
  qualifiedName : ∀ handle, registry.Persists (registry.image.qualifiedName handle)
    (later.image.qualifiedName handle)
  /-- A definition that is found stays the one that is found. -/
  found : ∀ namespaceName name handle, registry.find? namespaceName name = some handle →
    later.find? namespaceName name = some handle
  /-- With the same tables and policy, a descriptor gives the same result and sends the same
  requests, unless it fails because of a handle that has no row. -/
  rendered : ∀ (setting : RenderSetting) (descriptor : Descriptor),
    descriptor.outcome (setting.reading later) = descriptor.outcome (setting.reading registry) ∨
      ∃ missing, descriptor.outcome (setting.reading registry) =
        (.error (.dangling missing), []) ∧ ¬ registry.HasRow missing
  /-- A chain that goes on without end fails at the same handle, which has a row. -/
  endless : ∀ kind (handle : TypedHandle kind),
    (∀ steps, ancestor? (registry.image.link? kind) steps handle ≠ none) →
      ∃ repeated, registry.HasRow repeated ∧
        registry.image.qualifiedName ⟨kind, handle.row⟩ = .error (.dangling repeated) ∧
        later.image.qualifiedName ⟨kind, handle.row⟩ = .error (.dangling repeated)

/-- A registry keeps its answers while rows are added, whatever the rows link to. -/
theorem addAll_settled (registry : Registry) {additions : List Addition}
    (hfits : (registry.addAll additions).Fits) :
    registry.Settled (registry.addAll additions) := by
  have hlater := registry.addAll_extends additions
  exact {
    simpleName := simpleName_persists hlater hfits
    qualifiedName := qualifiedName_persists hlater hfits
    found := by
      intro namespaceName name handle hfound
      rw [find?_addAll, hfound, Option.some_or]
    rendered := fun setting descriptor =>
      descriptor.outcome_persists hlater hfits setting
    endless := by
      intro kind handle hendless
      obtain ⟨repeated, hname, hrow⟩ := qualifiedName_of_endless (hlater.fits hfits) hendless
      rcases qualifiedName_persists hlater hfits ⟨kind, handle.row⟩ with
        hsame | ⟨missing, hmissed, hmissing⟩
      · exact ⟨repeated, hrow, hname, hsame.trans hname⟩
      · cases hname.symm.trans hmissed
        exact absurd hrow hmissing }

/-- Two definitions that declare one another, and one at top level.  A second definition
with its names and one with the name of another row change neither the loop nor what is
found. -/
theorem addAll_settled_loop :
    let registry := empty.addAll [.nested ⟨2⟩ "Inner" ⟨0⟩, .nested ⟨1⟩ "Outer" ⟨0⟩,
      .definition "Audio" "Clip" ⟨0⟩]
    let later := registry.addAll [.definition "Audio" "Clip" ⟨0⟩, .definition "" "Outer" ⟨0⟩]
    later.Fits ∧ later.find? "Audio" "Clip" = some ⟨3⟩ ∧
      later.image.qualifiedName ⟨.typeDefinition, 1⟩ =
        .error (.dangling ⟨.typeDefinition, 1⟩) := by
  intro registry later
  have hfits : later.Fits := ⟨by decide, by decide⟩
  have hsettled := registry.addAll_settled hfits
  have hfound : registry.find? "Audio" "Clip" = some ⟨3⟩ :=
    (find?_empty_addAll _ "Audio" "Clip").trans rfl
  have hinner : registry.image.link? .typeDefinition ⟨1⟩ = some ⟨"Inner", some ⟨2⟩⟩ := rfl
  have houter : registry.image.link? .typeDefinition ⟨2⟩ = some ⟨"Outer", some ⟨1⟩⟩ := rfl
  have hname : registry.image.qualifiedName ⟨.typeDefinition, 1⟩ =
      .error (.dangling ⟨.typeDefinition, 1⟩) := by
    rw [registry.image.qualifiedName_eq (.inl rfl) ⟨1⟩, Enclosure.of]
    rw [climb_inside List.not_mem_nil hinner, climb_inside (by decide) houter,
      climb_repeated (by decide)]
    rfl
  refine ⟨hfits, hsettled.found "Audio" "Clip" ⟨3⟩ hfound, ?_⟩
  rcases hsettled.qualifiedName ⟨.typeDefinition, 1⟩ with hsame | ⟨missing, hmissed, hmissing⟩
  · exact hsame.trans hname
  · cases hname.symm.trans hmissed
    have hrow : registry.HasRow ⟨.typeDefinition, 1⟩ := ⟨by decide, by decide⟩
    exact absurd hrow hmissing

end Metadata.Registry

end TypeProjection

import TypeProjection.Proofs.Metadata.Tokens
import TypeProjection.Proofs.Projection.Wrapping

/-!
# What a trace tells

A rendering opens a span for every node that it meets, from the outermost to the leaf, and
only then decides anything.  What it decides at the leaf is told by the events behind the
spans: nothing on failure or for a primitive type, and else the object, the substitute or the
request.  So the requests can be read off the trace.
-/

namespace TypeProjection

open TypeProjection.Metadata TypeProjection.Source

/-- What is recorded of an entry. -/
structure Report where
  isSpan : Bool
  level : TraceLevel
  label : String
  fields : List (String × TraceValue)
  deriving DecidableEq, Repr

namespace Report

def rendering (descriptor : Descriptor) (policy : Policy) : Report :=
  ⟨true, .trace, "render",
    [("descriptor", .text descriptor.text), ("policy", .text policy.describe)]⟩

/-- An event that tells nothing but a simple name. -/
def decision (label name : String) : Report :=
  ⟨false, .trace, label, [("name", .text name)]⟩

def substituted (name : String) (substitute : TypeExpr) : Report :=
  ⟨false, .debug, "substituted",
    [("name", .text name), ("substitute", .text substitute.text)]⟩

def requesting (request : Request) : Report :=
  ⟨false, .debug, "requesting generation", [("request", .text request.text)]⟩

end Report

/-- What the text of a policy shows: the names of the choices that it makes, and then the
bits that mean nothing. -/
def Policy.shown (policy : Policy) : List String :=
  (Choice.all.filter policy.makes).map Choice.name ++
    if vocabulary.unnamed policy.bits = 0 then []
    else ["0x" ++ Text.lowerHex (vocabulary.unnamed policy.bits).toNat]

/-- A policy without any bit is shown as a number. -/
theorem Policy.describe_eq (policy : Policy) :
    policy.describe =
      "RenderPolicy(" ++
        (if policy.bits = 0 then "0x0" else " | ".intercalate policy.shown) ++ ")" := by
  rw [shown, ← names_eq]
  rfl

def TraceEntry.report (entry : TraceEntry) : Report :=
  ⟨entry.isSpan, entry.level, entry.label, entry.fields⟩

/-! ## Spans -/

namespace Descriptor

variable (setting : RenderSetting) (descriptor : Descriptor)

/-- The descriptor and all that it is made of, from the outermost node to the leaf. -/
def nodes : Descriptor → List Descriptor
  | primitive code => [primitive code]
  | named handle => [named handle]
  | array element dimensions => array element dimensions :: element.nodes
  | pointer element => pointer element :: element.nodes

theorem length_nodes : descriptor.nodes.length = descriptor.depth + 1 := by
  induction descriptor with
  | primitive code => rfl
  | named handle => rfl
  | array element dimensions ih => exact congrArg Nat.succ ih
  | pointer element ih => exact congrArg Nat.succ ih

/-- What is told at a leaf. -/
def leafTrace : Descriptor → List TraceEntry
  | primitive _ => []
  | named handle => (setting.renderHandle handle).trace
  | array _ _ => []
  | pointer _ => []

/-- The trace of a rendering: a span for each node, and then what is told at the leaf. -/
theorem trace_render :
    (descriptor.render setting).trace =
      descriptor.nodes.map (TraceEntry.rendering · setting.policy) ++
        descriptor.leaf.leafTrace setting := by
  induction descriptor with
  | primitive code => rfl
  | named handle => rfl
  | array element dimensions ih => exact congrArg (List.cons _) ih
  | pointer element ih => exact congrArg (List.cons _) ih

def spans : List Report :=
  ((descriptor.render setting).trace.filter TraceEntry.isSpan).map TraceEntry.report

def events : List Report :=
  ((descriptor.render setting).trace.filter (!·.isSpan)).map TraceEntry.report

end Descriptor

/-! ## Events at a leaf -/

namespace RenderSetting

variable {setting : RenderSetting} {handle : Handle} {info : TypeInfo} {name : DottedName}

theorem renderNamed_trace :
    (setting.renderNamed info name).trace =
      .requesting info.request ::
        if info.isInterface then
          if setting.policy.makes .managedInterfaces then [.asManagedReference info.name]
          else [.asPointer info.name]
        else [] := by
  rw [renderNamed]
  split
  · split <;> rfl
  · rfl

theorem renderResolved_events (setting : RenderSetting) (info : TypeInfo) (name : DottedName) :
    ∀ entry ∈ (setting.renderResolved info name).trace, ¬ entry.isSpan := by
  by_cases hobject : setting.isObject info.name
  · rw [renderResolved_of_object hobject]
    simp [TraceEntry.isSpan]
  cases hsubstitute : setting.substitute? info.name with
  | some substitute =>
      rw [renderResolved_of_substituted hobject hsubstitute]
      simp [TraceEntry.isSpan]
  | none =>
      rw [renderResolved_of_kept hobject hsubstitute, renderNamed_trace]
      split
      · split <;> simp [TraceEntry.isSpan]
      · simp [TraceEntry.isSpan]

/-- A handle opens no spans. -/
theorem renderHandle_events (setting : RenderSetting) (handle : Handle) :
    ∀ entry ∈ (setting.renderHandle handle).trace, ¬ entry.isSpan := by
  rcases setting.renderHandle_cases handle with ⟨-, error, hfailed⟩ | ⟨-, info, name, -, -, hresolved⟩
  · rw [hfailed]
    exact List.forall_mem_nil _
  · rw [hresolved]
    exact setting.renderResolved_events info name

theorem renderResolved_requests (setting : RenderSetting) (info : TypeInfo)
    (name : DottedName) :
    ((setting.renderResolved info name).trace.map TraceEntry.report).filter
        (·.label == "requesting generation") =
      (setting.renderResolved info name).requests.map Report.requesting := by
  by_cases hobject : setting.isObject info.name
  · rw [renderResolved_of_object hobject]
    rfl
  cases hsubstitute : setting.substitute? info.name with
  | some substitute =>
      rw [renderResolved_of_substituted hobject hsubstitute]
      rfl
  | none =>
      rw [renderResolved_of_kept hobject hsubstitute, renderNamed_trace, renderNamed_requests]
      split
      · split <;> rfl
      · rfl

/-- The requests that are sent for a handle are told one by one. -/
theorem renderHandle_requests (setting : RenderSetting) (handle : Handle) :
    ((setting.renderHandle handle).trace.map TraceEntry.report).filter
        (·.label == "requesting generation") =
      (setting.renderHandle handle).requests.map Report.requesting := by
  rcases setting.renderHandle_cases handle with ⟨-, error, hfailed⟩ | ⟨-, info, name, -, -, hresolved⟩
  · rw [hfailed]
    rfl
  · rw [hresolved]
    exact setting.renderResolved_requests info name

end RenderSetting

/-! ## Renderings -/

namespace Descriptor

variable {setting : RenderSetting} {descriptor : Descriptor} {handle : Handle} {type : TypeExpr}

theorem leafTrace_events (setting : RenderSetting) (leaf : Descriptor) :
    ∀ entry ∈ leaf.leafTrace setting, ¬ entry.isSpan := by
  cases leaf with
  | primitive code => exact List.forall_mem_nil _
  | named handle => exact setting.renderHandle_events handle
  | array element dimensions => exact List.forall_mem_nil _
  | pointer element => exact List.forall_mem_nil _

theorem isSpan_of_mem_nodes (setting : RenderSetting) (descriptor : Descriptor) :
    ∀ entry ∈ descriptor.nodes.map (TraceEntry.rendering · setting.policy), entry.isSpan := by
  intro entry hentry
  obtain ⟨node, -, rfl⟩ := List.mem_map.mp hentry
  rfl

theorem spans_eq (setting : RenderSetting) (descriptor : Descriptor) :
    descriptor.spans setting = descriptor.nodes.map (Report.rendering · setting.policy) := by
  rw [spans, trace_render, List.filter_append,
    List.filter_eq_self.mpr (isSpan_of_mem_nodes setting descriptor),
    List.filter_eq_nil_iff.mpr (leafTrace_events setting descriptor.leaf), List.append_nil,
    List.map_map]
  rfl

theorem events_eq (setting : RenderSetting) (descriptor : Descriptor) :
    descriptor.events setting =
      (descriptor.leaf.leafTrace setting).map TraceEntry.report := by
  have hnodes : (descriptor.nodes.map (TraceEntry.rendering · setting.policy)).filter
      (!·.isSpan) = [] := by
    rw [List.filter_eq_nil_iff]
    intro entry hentry
    simpa using isSpan_of_mem_nodes setting descriptor entry hentry
  have hleaf : (descriptor.leaf.leafTrace setting).filter (!·.isSpan) =
      descriptor.leaf.leafTrace setting := by
    rw [List.filter_eq_self]
    intro entry hentry
    simpa using leafTrace_events setting descriptor.leaf entry hentry
  rw [events, trace_render, List.filter_append, hnodes, hleaf, List.nil_append]

theorem reports_eq (setting : RenderSetting) (descriptor : Descriptor) :
    (descriptor.render setting).trace.map TraceEntry.report =
      descriptor.spans setting ++ descriptor.events setting := by
  rw [spans_eq, events_eq, trace_render, List.map_append, List.map_map]
  rfl

/-- A descriptor that renders renders at its leaf. -/
theorem leaf_ok_of_ok (htype : (descriptor.outcome setting).1 = .ok type) :
    ∃ written, (descriptor.leaf.outcome setting).1 = .ok written := by
  rw [outcome_eq_wrapped] at htype
  cases hleaf : (descriptor.leaf.outcome setting).1 with
  | error error => rw [hleaf] at htype; cases htype
  | ok written => exact ⟨written, rfl⟩

/-- A handle that renders is resolved, and its events and requests are those of its row. -/
theorem exists_told (hleaf : descriptor.leaf = .named handle)
    (htype : (descriptor.leaf.outcome setting).1 = .ok type) :
    ∃ info name, setting.image.typeInfo handle = .ok info ∧
      descriptor.events setting =
        (setting.renderResolved info name).trace.map TraceEntry.report ∧
      (descriptor.outcome setting).2 = (setting.renderResolved info name).requests := by
  obtain ⟨info, name, hinfo, hname, -⟩ := exists_resolved hleaf htype
  have hresolved := RenderSetting.renderHandle_of_resolved hinfo hname
  refine ⟨info, name, hinfo, ?_, ?_⟩
  · rw [events_eq, hleaf, leafTrace, hresolved]
  · rw [outcome_eq_wrapped, hleaf, ← hresolved]
    rfl

/-- What fails tells nothing. -/
theorem events_of_error {error : ProjectionError}
    (hresult : (descriptor.outcome setting).1 = .error error) :
    descriptor.events setting = [] := by
  obtain ⟨handle, hleaf, hfails⟩ := render_error_iff.mp hresult
  rw [events_eq, hleaf, leafTrace, RenderSetting.renderHandle_of_error hfails]
  rfl

theorem events_of_object {simple : String} (hleaf : descriptor.leaf = .named handle)
    (htype : (descriptor.leaf.outcome setting).1 = .ok type)
    (hsimple : setting.image.simpleName handle = .ok simple)
    (hobject : setting.isObject simple) :
    descriptor.events setting = [.decision "projected as object" simple] := by
  obtain ⟨info, name, hinfo, hevents, -⟩ := exists_told hleaf htype
  cases (Image.typeInfo_eq_ok hinfo).1.symm.trans hsimple
  rw [hevents, RenderSetting.renderResolved_of_object hobject]
  rfl

theorem events_of_substitute {simple : String} {substitute : TypeExpr}
    (hleaf : descriptor.leaf = .named handle)
    (htype : (descriptor.leaf.outcome setting).1 = .ok type)
    (hsimple : setting.image.simpleName handle = .ok simple)
    (hobject : ¬ setting.isObject simple)
    (hsubstitute : setting.substitute? simple = some substitute) :
    descriptor.events setting = [.substituted simple substitute] := by
  obtain ⟨info, name, hinfo, hevents, -⟩ := exists_told hleaf htype
  cases (Image.typeInfo_eq_ok hinfo).1.symm.trans hsimple
  rw [hevents, RenderSetting.renderResolved_of_substituted hobject hsubstitute]
  rfl

theorem events_of_kept {simple : String} (hleaf : descriptor.leaf = .named handle)
    (htype : (descriptor.leaf.outcome setting).1 = .ok type)
    (hsimple : setting.image.simpleName handle = .ok simple)
    (hobject : ¬ setting.isObject simple) (hnone : setting.substitute? simple = none) :
    ∃ request, (descriptor.outcome setting).2 = [request] ∧
      (setting.image.IsInterface handle → setting.policy.makes .managedInterfaces →
        descriptor.events setting =
          [.requesting request, .decision "interface as managed reference" simple]) ∧
      (setting.image.IsInterface handle → ¬ setting.policy.makes .managedInterfaces →
        descriptor.events setting =
          [.requesting request, .decision "interface as pointer" simple]) ∧
      (¬ setting.image.IsInterface handle →
        descriptor.events setting = [.requesting request]) := by
  obtain ⟨info, name, hinfo, hevents, hrequests⟩ := exists_told hleaf htype
  cases (Image.typeInfo_eq_ok hinfo).1.symm.trans hsimple
  rw [RenderSetting.renderResolved_of_kept hobject hnone] at hevents hrequests
  rw [RenderSetting.renderNamed_trace] at hevents
  rw [RenderSetting.renderNamed_requests] at hrequests
  rw [Image.isInterface_iff hinfo]
  refine ⟨info.request, hrequests, ?_, ?_, ?_⟩
  · intro hinterface hmanaged
    rw [hevents, if_pos hinterface, if_pos hmanaged]
    rfl
  · intro hinterface hopen
    rw [hevents, if_pos hinterface, if_neg hopen]
    rfl
  · intro hplain
    rw [hevents, if_neg hplain]
    rfl

theorem Substituted.entry {simple : String} {substitute : TypeExpr}
    (hsubstituted : descriptor.Substituted setting substitute)
    (hleaf : descriptor.leaf = .named handle)
    (hsimple : setting.image.simpleName handle = .ok simple) :
    ¬ setting.isObject simple ∧ setting.substitute? simple = some substitute := by
  obtain ⟨other, name, hother, -, hname, hobject, htable⟩ := hsubstituted
  cases hleaf.symm.trans hother
  cases hsimple.symm.trans hname
  rw [RenderSetting.isObject_iff, RenderSetting.substitute?_eq_some_iff]
  exact ⟨hobject, htable⟩

theorem events_requests (setting : RenderSetting) (descriptor : Descriptor) :
    (descriptor.events setting).filter (·.label == "requesting generation") =
      (descriptor.outcome setting).2.map Report.requesting := by
  rw [events_eq, outcome_eq_wrapped]
  rcases descriptor.leaf_cases with ⟨code, hleaf⟩ | ⟨handle, hleaf⟩
  · rw [hleaf]
    rfl
  · rw [hleaf]
    exact setting.renderHandle_requests handle

/-- How a rendering and its trace agree. -/
structure Traced (setting : RenderSetting) (descriptor : Descriptor) : Prop where
  /-- All spans are opened before any event happens. -/
  order : (descriptor.render setting).trace.map TraceEntry.report =
    descriptor.spans setting ++ descriptor.events setting
  /-- There is a span for each node, from the outermost to the leaf. -/
  spans : descriptor.spans setting =
    descriptor.nodes.map (Report.rendering · setting.policy)
  /-- The text of the policy in each of them names the choices that it makes. -/
  policy : setting.policy.describe =
    "RenderPolicy(" ++
      (if setting.policy.bits = 0 then "0x0" else " | ".intercalate setting.policy.shown) ++ ")"
  /-- There is one span more than there are arrays and pointers. -/
  count : (descriptor.spans setting).length = descriptor.depth + 1
  /-- What fails tells nothing. -/
  failed : ∀ error, (descriptor.outcome setting).1 = .error error →
    descriptor.events setting = []
  /-- A primitive type tells nothing. -/
  primitive : ∀ code, descriptor.leaf = .primitive code → descriptor.events setting = []
  /-- A name that is written as an object is told. -/
  object : ∀ handle simple type, descriptor.leaf = .named handle →
    (descriptor.outcome setting).1 = .ok type → setting.image.simpleName handle = .ok simple →
    setting.policy.makes .managedInterfaces → simple ∈ objectNames →
      descriptor.events setting = [.decision "projected as object" simple]
  /-- A substitute is told with the text of the entry that is written for the name. -/
  substituted : ∀ handle simple substitute, descriptor.leaf = .named handle →
    setting.image.simpleName handle = .ok simple →
    descriptor.Substituted setting substitute →
      (descriptor.leaf.outcome setting).1 = .ok substitute ∧
        descriptor.events setting = [.substituted simple substitute]
  /-- Otherwise the request that is sent is told, and then how an interface is written. -/
  requested : ∀ handle type, descriptor.leaf = .named handle →
    (descriptor.outcome setting).1 = .ok type →
    ¬ (setting.policy.makes .managedInterfaces ∧ setting.ObjectLeaf descriptor.leaf) →
    (¬ ∃ substitute, descriptor.Substituted setting substitute) →
      ∃ simple request, setting.image.simpleName handle = .ok simple ∧
        (descriptor.outcome setting).2 = [request] ∧
        (setting.image.IsInterface handle → setting.policy.makes .managedInterfaces →
          descriptor.events setting =
            [.requesting request, .decision "interface as managed reference" simple]) ∧
        (setting.image.IsInterface handle → ¬ setting.policy.makes .managedInterfaces →
          descriptor.events setting =
            [.requesting request, .decision "interface as pointer" simple]) ∧
        (¬ setting.image.IsInterface handle →
          descriptor.events setting = [.requesting request])
  /-- The requests are told one by one. -/
  requests : (descriptor.events setting).filter (·.label == "requesting generation") =
    (descriptor.outcome setting).2.map Report.requesting
  /-- The text of each has the eight digits of its token. -/
  tokens : ∀ request ∈ (descriptor.outcome setting).2, ∃ digits,
    request.text = "0x" ++ digits ∧ Text.Capitals 8 request.handle.token.toNat digits

/-- A trace tells what happened in a rendering. -/
theorem render_traced (setting : RenderSetting) (descriptor : Descriptor) :
    Traced setting descriptor where
  order := reports_eq setting descriptor
  spans := spans_eq setting descriptor
  policy := setting.policy.describe_eq
  count := by rw [spans_eq, List.length_map, length_nodes]
  failed error hresult := events_of_error hresult
  primitive code hleaf := by
    rw [events_eq, hleaf]
    rfl
  object handle simple type hleaf htype hsimple hmanaged hmember := by
    obtain ⟨written, hwritten⟩ := leaf_ok_of_ok htype
    exact events_of_object hleaf hwritten hsimple
      (RenderSetting.isObject_iff.mpr ⟨hmanaged, hmember⟩)
  substituted handle simple substitute hleaf hsimple hsubstituted := by
    obtain ⟨hobject, hentry⟩ := hsubstituted.entry hleaf hsimple
    refine ⟨hsubstituted.written, ?_⟩
    exact events_of_substitute hleaf hsubstituted.written hsimple hobject hentry
  requested handle type hleaf htype hobject hnone := by
    obtain ⟨written, hwritten⟩ := leaf_ok_of_ok htype
    obtain ⟨info, name, hinfo, -, -⟩ := exists_resolved hleaf hwritten
    have hsimple := (Image.typeInfo_eq_ok hinfo).1
    have hkept : ¬ (setting.policy.makes .managedInterfaces ∧ info.name ∈ objectNames) :=
      fun hfound => hobject ⟨hfound.1, handle, info.name, hleaf, hsimple, hfound.2⟩
    have hentry : setting.substitute? info.name = none := by
      rw [Option.eq_none_iff_forall_ne_some]
      intro substitute hsubstitute
      exact hnone ⟨substitute, handle, info.name, hleaf, ⟨written, hwritten⟩, hsimple, hkept,
        RenderSetting.substitute?_eq_some_iff.mp hsubstitute⟩
    rw [← RenderSetting.isObject_iff] at hkept
    obtain ⟨request, hrequested⟩ := events_of_kept hleaf hwritten hsimple hkept hentry
    exact ⟨info.name, request, hsimple, hrequested⟩
  requests := events_requests setting descriptor
  tokens request _ := request.handle.text_capitals

end Descriptor

end TypeProjection

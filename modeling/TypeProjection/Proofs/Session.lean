import TypeProjection.Proofs.Metadata.Growth
import TypeProjection.Proofs.Projection.Accounting
import TypeProjection.Proofs.Projection.RequestHistory
import TypeProjection.Session

/-!
# Runs of sessions

What a step does to each part of a session, and from that what a run does.  The registry has the
rows that were added and not taken back.  Renderings only send requests, and none that fails
changes anything; between those that send requests and those that take them none is lost.
Substitutes and policies are the ones that were set last.
-/

namespace TypeProjection.Session

open TypeProjection.Metadata TypeProjection.Signature

variable {session : Session} {next : Step}

/-! ## Runs -/

def after (session : Session) (script : List Step) : Session :=
  script.foldl (fun session next => (session.step next).session) session

/-- What the steps of a script contribute, each of them to the session before it. -/
def collect {α : Type} (contribution : Session → Step → List α) (session : Session) :
    List Step → List α
  | [] => []
  | next :: script =>
      contribution session next ++ collect contribution (session.step next).session script

/-- The accounts of a run are those of its steps. -/
theorem steps_eq_collect (session : Session) (script : List Step) :
    session.steps script = session.collect (fun session next => [session.step next]) script := by
  induction script generalizing session with
  | nil => rfl
  | cons next script ih => exact congrArg (List.cons _) (ih (session.step next).session)

/-- A run goes on from where it is. -/
theorem steps_append (session : Session) (script later : List Step) :
    session.steps (script ++ later) =
      session.steps script ++ (session.after script).steps later := by
  induction script generalizing session with
  | nil => rfl
  | cons next script ih => exact congrArg (List.cons _) (ih (session.step next).session)

/-! ## Renderings -/

/-- How a step renders, if it does. -/
def Step.mode? : Step → Option RenderMode
  | .render mode _ | .renderType mode _ | .renderField mode _ | .renderMethod mode _ => some mode
  | _ => none

/-- What a step renders.  There is nothing in a blob that does not decode. -/
def Step.descriptors : Step → List Descriptor
  | .render _ descriptor => [descriptor]
  | .renderType _ blob => (Descriptor.decodeType blob).toOption.toList
  | .renderField _ blob => (Descriptor.decodeField blob).toOption.toList
  | .renderMethod _ blob => (Descriptor.decodeMethod blob).toOption.elim [] (·.types)
  | _ => []

/-- The requests that are sent when descriptors are rendered one after another. -/
def requestsOf (session : Session) (mode : RenderMode) (descriptors : List Descriptor) :
    List Request :=
  descriptors.flatMap fun descriptor =>
    (descriptor.render (session.renderSetting mode)).requests

section

variable {sink : Sink} {requests : List Request} {mode : RenderMode}

@[simp]
theorem receive_nil : session.receive sink [] = session := by
  cases sink with
  | queue => rfl
  | aside => simp [receive]

@[simp]
theorem registry_receive : (session.receive sink requests).registry = session.registry := by
  cases sink <;> rfl

@[simp]
theorem kept?_receive : (session.receive sink requests).kept? = session.kept? := by
  cases sink <;> rfl

theorem renderDecoded_session (entry : Entry) (blob : List UInt8)
    (decoded : Except ProjectionError Descriptor) :
    (session.renderDecoded mode entry blob decoded).session =
      session.receive mode.sink (session.requestsOf mode decoded.toOption.toList) := by
  cases decoded with
  | error error => exact receive_nil.symm
  | ok descriptor =>
      change _ = session.receive mode.sink (session.requestsOf mode [descriptor])
      rw [requestsOf, List.flatMap_singleton]
      rfl

/-- Rendering does nothing to a session but to send the requests of what is rendered. -/
theorem step_of_mode? (hmode : next.mode? = some mode) :
    (session.step next).session =
      session.receive mode.sink (session.requestsOf mode next.descriptors) := by
  cases next <;> cases hmode
  case render descriptor =>
    rw [Step.descriptors, requestsOf, List.flatMap_singleton]
    rfl
  case renderType blob => exact renderDecoded_session .type blob _
  case renderField blob => exact renderDecoded_session .field blob _
  case renderMethod blob =>
    rw [step, renderDecodedMethod, Step.descriptors]
    cases Descriptor.decodeMethod blob with
    | error error => exact receive_nil.symm
    | ok signature =>
        change session.receive mode.sink ((signature.map _).types.flatMap _) =
          session.receive mode.sink (session.requestsOf mode signature.types)
        rw [MethodSignature.types_map, List.flatMap_map]
        rfl

/-- Descriptors that all fail leave a session as it is. -/
theorem step_of_failures (hmode : next.mode? = some mode)
    (hfailures : ∀ descriptor ∈ next.descriptors,
      ∃ error, (descriptor.render (session.renderSetting mode)).result = .error error) :
    (session.step next).session = session := by
  have hnone : session.requestsOf mode next.descriptors = [] := by
    rw [requestsOf, List.flatMap_eq_nil_iff]
    intro descriptor hdescriptor
    obtain ⟨error, herror⟩ := hfailures descriptor hdescriptor
    exact Descriptor.requests_of_error herror
  rw [step_of_mode? hmode, hnone, receive_nil]

theorem renderDecoded_of_error {entry : Entry} {blob : List UInt8}
    {decoded : Except ProjectionError Descriptor} {error : ProjectionError}
    (hanswer : (session.renderDecoded mode entry blob decoded).answer = .type (.error error)) :
    (session.renderDecoded mode entry blob decoded).session = session := by
  rw [renderDecoded_session]
  cases decoded with
  | error failure => exact receive_nil
  | ok descriptor =>
      have herror := Answer.type.inj hanswer
      change session.receive mode.sink (session.requestsOf mode [descriptor]) = session
      rw [requestsOf, List.flatMap_singleton, Descriptor.requests_of_error herror, receive_nil]

/-- A rendering that answers with an error leaves a session as it is. -/
theorem step_of_error {error : ProjectionError}
    (hanswer : (session.step next).answer = .type (.error error)) :
    (session.step next).session = session := by
  cases next with
  | render mode descriptor =>
      have herror := Answer.type.inj hanswer
      exact step_of_failures rfl (List.forall_mem_singleton.mpr ⟨error, herror⟩)
  | renderType mode blob => exact renderDecoded_of_error hanswer
  | renderField mode blob => exact renderDecoded_of_error hanswer
  | renderMethod mode blob =>
      rw [step, renderDecodedMethod] at hanswer
      cases hdecoded : Descriptor.decodeMethod blob <;> rw [hdecoded] at hanswer <;> cases hanswer
  | _ => cases hanswer

end

/-! ## The registry -/

def Step.addition? : Step → Option Registry.Addition
  | .add addition => some addition
  | _ => none

/-- The additions that made the rows of a registry, and those that made the one that is kept. -/
structure Additions where
  current : List Registry.Addition
  kept? : Option (List Registry.Addition)

def Additions.follow (additions : Additions) : Step → Additions
  | .add addition => { additions with current := additions.current ++ [addition] }
  | .keep => { additions with kept? := some additions.current }
  | .restore => ⟨additions.kept?.getD additions.current, none⟩
  | _ => additions

/-- The registries of a session were made by additions to a first one. -/
structure MadeBy (session : Session) (origin : Registry) (additions : Additions) : Prop where
  registry : session.registry = origin.addAll additions.current
  kept? : session.kept? = additions.kept?.map origin.addAll

variable {origin : Registry} {additions : Additions}

/-- A step adds a row, or goes back to the registry that was kept, or leaves the registries
as they are. -/
theorem MadeBy.step (hmade : session.MadeBy origin additions) (next : Step) :
    (session.step next).session.MadeBy origin (additions.follow next) := by
  cases next with
  | add addition =>
      refine ⟨?_, hmade.kept?⟩
      calc
        (session.registry.add addition).2 =
            ((origin.addAll additions.current).add addition).2 := by rw [hmade.registry]
        _ = origin.addAll (additions.current ++ [addition]) := by
          rw [Registry.addAll, Registry.addAll, List.foldl_append]
          rfl
  | keep => exact ⟨hmade.registry, congrArg some hmade.registry⟩
  | restore =>
      refine ⟨?_, rfl⟩
      change session.kept?.getD session.registry = _
      rw [hmade.registry, hmade.kept?, Option.getD_map]
      rfl
  | render mode descriptor | renderType mode blob | renderField mode blob
  | renderMethod mode blob =>
      rw [step_of_mode? rfl]
      exact ⟨registry_receive.trans hmade.registry, kept?_receive.trans hmade.kept?⟩
  | _ => exact ⟨hmade.registry, hmade.kept?⟩

theorem MadeBy.after (hmade : session.MadeBy origin additions) (script : List Step) :
    (session.after script).MadeBy origin (script.foldl Additions.follow additions) := by
  induction script generalizing session additions with
  | nil => exact hmade
  | cons next script ih => exact ih (hmade.step next)

/-- Every registry of a session was made row by row from the empty one. -/
theorem registry_after_start (script : List Step) :
    (start.after script).registry =
      Registry.empty.addAll (script.foldl Additions.follow ⟨[], none⟩).current :=
  (MadeBy.after ⟨rfl, rfl⟩ script).registry

theorem registry_step (hforward : next ≠ .restore) :
    (session.step next).session.registry =
      session.registry.addAll next.addition?.toList := by
  cases next with
  | restore => exact absurd rfl hforward
  | render mode descriptor | renderType mode blob | renderField mode blob
  | renderMethod mode blob =>
      rw [step_of_mode? rfl]
      exact registry_receive
  | _ => rfl

/-- Without a way back, a registry grows by the rows that are added and by nothing else. -/
theorem registry_after (session : Session) {script : List Step} (hforward : .restore ∉ script) :
    (session.after script).registry =
      session.registry.addAll (script.filterMap Step.addition?) := by
  induction script generalizing session with
  | nil => rfl
  | cons next script ih =>
      obtain ⟨hnext, hscript⟩ := List.ne_and_not_mem_of_not_mem_cons hforward
      calc
        (session.after (next :: script)).registry =
            (session.step next).session.registry.addAll (script.filterMap Step.addition?) :=
          ih _ hscript
        _ = (session.registry.addAll next.addition?.toList).addAll
              (script.filterMap Step.addition?) := by rw [registry_step (Ne.symm hnext)]
        _ = session.registry.addAll ((next :: script).filterMap Step.addition?) := by
          cases hadded : next.addition? with
          | none => rw [List.filterMap_cons_none hadded]; rfl
          | some addition => rw [List.filterMap_cons_some hadded]; rfl

/-! ## Requests -/

/-- The requests that the renderings of a step send to a sink. -/
def sentTo (sink : Sink) (session : Session) (next : Step) : List Request :=
  match next.mode? with
  | some mode => if mode.sink = sink then session.requestsOf mode next.descriptors else []
  | none => []

/-- What a step calls the queue of a session for. -/
def calls (session : Session) (next : Step) : List RequestQueue.Call :=
  match next with
  | .request request => [.record request]
  | .distinctRequests => [.distinct]
  | .countRequests => [.length, .isEmpty]
  | .takeRequests => [.takeAll]
  | _ => (session.sentTo .queue next).map .record

/-- The requests that a step hands out. -/
def taken (session : Session) (next : Step) : List Request :=
  match next, (session.step next).answer with
  | .takeRequests, .requests requests => requests
  | _, _ => []

theorem queue_receive (sink : Sink) (requests : List Request) :
    (session.receive sink requests).queue =
      session.queue.after ((if sink = .queue then requests else []).map .record) := by
  cases sink with
  | queue =>
      rw [if_pos rfl, RequestQueue.after, List.foldl_map]
      rfl
  | aside => rfl

theorem aside_receive (sink : Sink) (requests : List Request) :
    (session.receive sink requests).aside =
      session.aside ++ if sink = .aside then requests else [] := by
  cases sink with
  | queue => exact (List.append_nil _).symm
  | aside => rfl

theorem queue_step (session : Session) (next : Step) :
    (session.step next).session.queue = session.queue.after (session.calls next) := by
  cases next with
  | render mode descriptor | renderType mode blob | renderField mode blob
  | renderMethod mode blob =>
      rw [step_of_mode? rfl, queue_receive]
      rfl
  | _ => rfl

theorem aside_step (session : Session) (next : Step) :
    (session.step next).session.aside = session.aside ++ session.sentTo .aside next := by
  cases next with
  | render mode descriptor | renderType mode blob | renderField mode blob
  | renderMethod mode blob =>
      rw [step_of_mode? rfl, aside_receive]
      rfl
  | _ => exact (List.append_nil _).symm

theorem taken_eq (session : Session) (next : Step) :
    session.taken next =
      RequestQueue.handedOut (session.queue.history (session.calls next)) := by
  cases next with
  | render mode descriptor | renderType mode blob | renderField mode blob
  | renderMethod mode blob =>
      exact (RequestQueue.handedOut_history_record session.queue _).symm
  | takeRequests => exact (List.append_nil _).symm
  | _ => rfl

/-- The queue of a session has met the calls of all steps. -/
theorem queue_after (session : Session) (script : List Step) :
    (session.after script).queue = session.queue.after (session.collect calls script) := by
  induction script generalizing session with
  | nil => rfl
  | cons next script ih =>
      rw [collect, RequestQueue.after_append, ← queue_step]
      exact ih (session.step next).session

theorem aside_after (session : Session) (script : List Step) :
    (session.after script).aside = session.aside ++ session.collect (sentTo .aside) script := by
  induction script generalizing session with
  | nil => exact (List.append_nil _).symm
  | cons next script ih =>
      rw [collect, ← List.append_assoc, ← aside_step]
      exact ih (session.step next).session

theorem collect_taken (session : Session) (script : List Step) :
    session.collect taken script =
      RequestQueue.handedOut (session.queue.history (session.collect calls script)) := by
  induction script generalizing session with
  | nil => rfl
  | cons next script ih =>
      rw [collect, collect, RequestQueue.history_append, RequestQueue.handedOut_append,
        taken_eq, ih, queue_step]

/-- No request is lost in a session: what was taken, and then what is still there, is what was
there at first and what was sent since. -/
theorem requests_kept (session : Session) (script : List Step) :
    session.collect taken script ++ (session.after script).queue.requests =
      session.queue.requests ++ RequestQueue.sent (session.collect calls script) := by
  rw [collect_taken, queue_after]
  exact RequestQueue.history_keeps session.queue _

/-! ## Substitutes and policies -/

/-- What a session renders with besides its registry. -/
structure Settings where
  builtin : Substitutes
  marshaled : Substitutes
  policy : Policy

def settings (session : Session) : Settings :=
  ⟨session.builtin, session.marshaled, session.policy⟩

def Settings.follow (settings : Settings) : Step → Settings
  | .setBuiltin substitutes => { settings with builtin := substitutes }
  | .setMarshaled substitutes => { settings with marshaled := substitutes }
  | .setPolicy policy => { settings with policy }
  | _ => settings

theorem settings_receive (sink : Sink) (requests : List Request) :
    (session.receive sink requests).settings = session.settings := by
  cases sink <;> rfl

theorem settings_step (session : Session) (next : Step) :
    (session.step next).session.settings = session.settings.follow next := by
  cases next with
  | render mode descriptor | renderType mode blob | renderField mode blob
  | renderMethod mode blob =>
      rw [step_of_mode? rfl]
      exact settings_receive mode.sink _
  | _ => rfl

/-- Only the steps that set substitutes or a policy count for how types are rendered. -/
theorem settings_after (session : Session) (script : List Step) :
    (session.after script).settings = script.foldl Settings.follow session.settings := by
  induction script generalizing session with
  | nil => rfl
  | cons next script ih =>
      rw [List.foldl_cons, ← settings_step]
      exact ih (session.step next).session

end TypeProjection.Session

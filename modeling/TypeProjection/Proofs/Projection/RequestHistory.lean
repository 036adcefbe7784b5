import TypeProjection.Projection.Rendering

/-!
# The history of a queue

A queue takes requests in, shows them in several ways and hands all of them out.  Over any
history of such calls no request is lost and none is repeated: what was handed out, followed by
what is still there, is what was sent.  The list without repeats has each request at the place
of its first arrival, and which requests it has does not depend on the order in which types are
rendered.
-/

namespace TypeProjection.RequestQueue

open TypeProjection.Metadata

inductive Call where
  | record (request : Request)
  | requests
  | distinct
  | length
  | isEmpty
  | takeAll
  deriving DecidableEq, Repr

inductive Answer where
  | nothing
  | requests (requests : List Request)
  | count (count : Nat)
  | truth (value : Bool)
  deriving DecidableEq, Repr

def call (queue : RequestQueue) : Call → Answer × RequestQueue
  | .record request => (.nothing, queue.record request)
  | .requests => (.requests queue.requests, queue)
  | .distinct => (.requests queue.distinct, queue)
  | .length => (.count queue.length, queue)
  | .isEmpty => (.truth queue.isEmpty, queue)
  | .takeAll => (.requests queue.takeAll.1, queue.takeAll.2)

def after (queue : RequestQueue) (calls : List Call) : RequestQueue :=
  calls.foldl (fun queue call => (queue.call call).2) queue

def history (queue : RequestQueue) : List Call → List (Call × Answer)
  | [] => []
  | next :: calls =>
      (next, (queue.call next).1) :: history (queue.call next).2 calls

def sent (calls : List Call) : List Request :=
  calls.filterMap fun
    | .record request => some request
    | _ => none

/-- The requests that were handed out, in the order in which they were. -/
def handedOut (history : List (Call × Answer)) : List Request :=
  history.flatMap fun
    | (.takeAll, .requests requests) => requests
    | _ => []

/-- The calls that a rendering makes on the queue that takes in its requests. -/
def callsOf (rendering : Rendering) : List Call :=
  rendering.requests.map .record

/-- The calls that are made when descriptors are rendered one after another, each in a setting
of its own. -/
def renderCalls (renders : List (RenderSetting × Descriptor)) : List Call :=
  renders.flatMap fun (setting, descriptor) => callsOf (descriptor.render setting)

variable {queue : RequestQueue} {calls : List Call} {requests : List Request}

/-! ## Nothing is lost -/

theorem isEmpty_eq (queue : RequestQueue) :
    queue.isEmpty = decide (queue.requests = []) := by
  rw [isEmpty, Bool.eq_iff_iff, List.isEmpty_iff, decide_eq_true_iff]

theorem after_append (queue : RequestQueue) (calls later : List Call) :
    queue.after (calls ++ later) = (queue.after calls).after later :=
  List.foldl_append

theorem history_append (queue : RequestQueue) (calls later : List Call) :
    queue.history (calls ++ later) =
      queue.history calls ++ (queue.after calls).history later := by
  induction calls generalizing queue with
  | nil => rfl
  | cons next calls ih => exact congrArg (List.cons _) (ih (queue.call next).2)

theorem handedOut_append (history later : List (Call × Answer)) :
    handedOut (history ++ later) = handedOut history ++ handedOut later :=
  List.flatMap_append

theorem handedOut_cons (entry : Call × Answer) (history : List (Call × Answer)) :
    handedOut (entry :: history) = handedOut [entry] ++ handedOut history := by
  simp [handedOut]

theorem sent_cons (next : Call) (calls : List Call) :
    sent (next :: calls) = sent [next] ++ sent calls :=
  List.filterMap_append (l := [next])

/-- One call moves requests only from the queue into the hands of the caller. -/
theorem call_keeps (queue : RequestQueue) (next : Call) :
    handedOut [(next, (queue.call next).1)] ++ (queue.call next).2.requests =
      queue.requests ++ sent [next] := by
  cases next with
  | record request => rfl
  | takeAll => simp [call, takeAll, empty, handedOut, sent]
  | _ => simp [call, handedOut, sent]

/-- Calls one after another do the same. -/
theorem history_keeps (queue : RequestQueue) (calls : List Call) :
    handedOut (queue.history calls) ++ (queue.after calls).requests =
      queue.requests ++ sent calls := by
  induction calls generalizing queue with
  | nil => simp [history, after, handedOut, sent]
  | cons next calls ih =>
      calc
        handedOut (queue.history (next :: calls)) ++ (queue.after (next :: calls)).requests =
            handedOut [(next, (queue.call next).1)] ++
              (handedOut ((queue.call next).2.history calls) ++
                ((queue.call next).2.after calls).requests) := by
          rw [history, handedOut_cons, List.append_assoc]
          rfl
        _ = handedOut [(next, (queue.call next).1)] ++ (queue.call next).2.requests ++
              sent calls := by
          rw [ih, List.append_assoc]
        _ = queue.requests ++ sent (next :: calls) := by
          rw [call_keeps, sent_cons next calls, List.append_assoc]

/-! ## Requests without repeats -/

/-- A list has the requests of another one at the places of their first arrival. -/
structure FirstArrivals (requests distinct : List Request) : Prop where
  members : ∀ request, request ∈ distinct ↔ request ∈ requests
  once : distinct.Nodup
  order : distinct.Pairwise fun earlier later =>
    requests.idxOf earlier < requests.idxOf later

/-- A request is added to the list without repeats if it arrives for the first time. -/
theorem distinct_record (queue : RequestQueue) (request : Request) :
    (queue.record request).distinct =
      if request ∈ queue.requests then queue.distinct else queue.distinct ++ [request] := by
  rw [distinct, record, List.eraseDups_append, distinct, List.removeAll]
  by_cases hmember : request ∈ queue.requests
  · rw [if_pos hmember, List.filter_cons_of_neg (by simpa using hmember)]
    simp
  · rw [if_neg hmember, List.filter_cons_of_pos (by simpa using hmember)]
    simp [List.eraseDups_cons]

theorem firstArrivals_record (hfirst : FirstArrivals queue.requests queue.distinct)
    (request : Request) :
    FirstArrivals (queue.record request).requests (queue.record request).distinct := by
  have hrequests : (queue.record request).requests = queue.requests ++ [request] := rfl
  -- Requests that were there before keep their places.
  have hplace {earlier : Request} (hearlier : earlier ∈ queue.requests) :
      (queue.requests ++ [request]).idxOf earlier = queue.requests.idxOf earlier := by
    rw [List.idxOf_append, if_pos hearlier]
  have hkept : queue.distinct.Pairwise fun earlier later =>
      (queue.requests ++ [request]).idxOf earlier <
        (queue.requests ++ [request]).idxOf later := by
    refine hfirst.order.imp_of_mem ?_
    intro earlier later hearlier hlater hbefore
    rwa [hplace ((hfirst.members earlier).mp hearlier),
      hplace ((hfirst.members later).mp hlater)]
  rw [hrequests, distinct_record]
  by_cases hmember : request ∈ queue.requests
  · rw [if_pos hmember]
    refine ⟨?_, hfirst.once, hkept⟩
    intro other
    rw [hfirst.members, List.mem_append, List.mem_singleton]
    exact ⟨.inl, fun hother => hother.elim id fun hsame => hsame ▸ hmember⟩
  · have hnew : request ∉ queue.distinct := fun hold => hmember ((hfirst.members request).mp hold)
    rw [if_neg hmember]
    refine ⟨?_, ?_, ?_⟩
    · intro other
      rw [List.mem_append, List.mem_append, hfirst.members]
    · rw [List.nodup_append]
      refine ⟨hfirst.once, List.pairwise_singleton _ request, ?_⟩
      intro other hother last hlast hsame
      rw [List.mem_singleton.mp hlast] at hsame
      exact hnew (hsame ▸ hother)
    · rw [List.pairwise_append]
      refine ⟨hkept, List.pairwise_singleton _ request, ?_⟩
      intro earlier hearlier last hlast
      have hmemberEarlier := (hfirst.members earlier).mp hearlier
      rw [List.mem_singleton.mp hlast, hplace hmemberEarlier, List.idxOf_append,
        if_neg hmember]
      exact Nat.lt_add_left _ (List.idxOf_lt_length_of_mem hmemberEarlier)

theorem firstArrivals_call (hfirst : FirstArrivals queue.requests queue.distinct)
    (next : Call) :
    FirstArrivals (queue.call next).2.requests (queue.call next).2.distinct := by
  cases next with
  | record request => exact firstArrivals_record hfirst request
  | takeAll => exact ⟨fun _ => Iff.rfl, List.nodup_nil, List.Pairwise.nil⟩
  | _ => exact hfirst

theorem firstArrivals_after (hfirst : FirstArrivals queue.requests queue.distinct)
    (calls : List Call) :
    FirstArrivals (queue.after calls).requests (queue.after calls).distinct := by
  induction calls generalizing queue with
  | nil => exact hfirst
  | cons next calls ih => exact ih (firstArrivals_call hfirst next)

theorem firstArrivals_empty : FirstArrivals empty.requests empty.distinct :=
  ⟨fun _ => Iff.rfl, List.nodup_nil, List.Pairwise.nil⟩

/-! ## Renderings -/

/-- What is only sent stays in the queue. -/
theorem requests_after_record (queue : RequestQueue) (requests : List Request) :
    (queue.after (requests.map .record)).requests = queue.requests ++ requests := by
  induction requests generalizing queue with
  | nil => exact (List.append_nil _).symm
  | cons request requests ih =>
      calc
        (queue.after ((request :: requests).map .record)).requests =
            (queue.record request).requests ++ requests := ih (queue.record request)
        _ = queue.requests ++ request :: requests := List.append_cons .. |>.symm

/-- What is only sent is not handed out. -/
theorem handedOut_history_record (queue : RequestQueue) (requests : List Request) :
    handedOut (queue.history (requests.map .record)) = [] := by
  induction requests generalizing queue with
  | nil => rfl
  | cons request requests ih => exact ih (queue.record request)

theorem renderCalls_eq (renders : List (RenderSetting × Descriptor)) :
    renderCalls renders =
      (renders.flatMap fun (setting, descriptor) => (descriptor.render setting).requests).map
        .record := by
  rw [List.map_flatMap]
  rfl

/-- Behind some renderings, a queue has what was in it before and the requests of each. -/
theorem mem_after_renderCalls (queue : RequestQueue)
    (renders : List (RenderSetting × Descriptor)) (request : Request) :
    request ∈ (queue.after (renderCalls renders)).requests ↔
      request ∈ queue.requests ∨
        ∃ setting descriptor, (setting, descriptor) ∈ renders ∧
          request ∈ (descriptor.render setting).requests := by
  rw [renderCalls_eq, requests_after_record, List.mem_append, List.mem_flatMap]
  simp only [Prod.exists]

/-! ## Histories -/

/-- How a queue accounts for the calls that were made on it when it was new. -/
structure Accounts (calls : List Call) : Prop where
  /-- What was handed out, and then what is still there, is what was sent, in the order of its
  arrival. -/
  kept : handedOut (empty.history calls) ++ (empty.after calls).requests = sent calls
  /-- Those that are still there are shown. -/
  shown : ((empty.after calls).call .requests).1 = .requests (empty.after calls).requests
  /-- Their number is that of those that are shown. -/
  counted : ((empty.after calls).call .length).1 =
    .count (empty.after calls).requests.length
  /-- There are none if none are shown. -/
  emptied : ((empty.after calls).call .isEmpty).1 =
    .truth (decide ((empty.after calls).requests = []))
  /-- Without repeats, each of them is shown once, in the order of their first arrival. -/
  distinct : ((empty.after calls).call .distinct).1 =
      .requests (empty.after calls).distinct ∧
    FirstArrivals (empty.after calls).requests (empty.after calls).distinct
  /-- A definition and a reference with the same row are different requests. -/
  separate : ∀ row : UInt32, Request.definition ⟨row⟩ ≠ Request.reference ⟨row⟩
  /-- Calls that only show something leave the queue as it is. -/
  unchanged : ∀ next ∈ [Call.requests, .distinct, .length, .isEmpty],
    ((empty.after calls).call next).2 = empty.after calls
  /-- Which requests there are after some renderings does not depend on their order. -/
  reordered : ∀ renders others : List (RenderSetting × Descriptor), renders.Perm others →
    ∀ request, request ∈ (empty.after (calls ++ renderCalls renders)).distinct ↔
      request ∈ (empty.after (calls ++ renderCalls others)).distinct

/-- A queue accounts for all calls that are made on it. -/
theorem calls_accounted (calls : List Call) : Accounts calls where
  kept := history_keeps empty calls
  shown := rfl
  counted := rfl
  emptied := congrArg Answer.truth (isEmpty_eq _)
  distinct := ⟨rfl, firstArrivals_after firstArrivals_empty calls⟩
  separate row := nofun
  unchanged next hnext := by
    simp only [List.mem_cons, List.not_mem_nil, or_false] at hnext
    rcases hnext with rfl | rfl | rfl | rfl <;> rfl
  reordered renders others hperm request := by
    have hmembers (renders : List (RenderSetting × Descriptor)) :=
      (firstArrivals_after firstArrivals_empty (calls ++ renderCalls renders)).members request
    rw [hmembers renders, hmembers others, after_append, after_append,
      mem_after_renderCalls, mem_after_renderCalls]
    simp only [hperm.mem_iff]

end TypeProjection.RequestQueue

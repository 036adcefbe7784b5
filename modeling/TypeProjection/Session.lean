import TypeProjection.Descriptor.Decoding
import TypeProjection.Metadata.Registry
import TypeProjection.Projection.Rendering

/-!
# Sessions

A session holds all that a projection works with: a registry of types that grows,
substitutes of two kinds, a policy and the requests received so far.  It is driven
by steps, each of which answers something and leaves a trace.
-/

namespace TypeProjection

open TypeProjection.Metadata TypeProjection.Signature TypeProjection.Source

/-- Where the requests of a rendering go. -/
inductive Sink where
  /-- The queue of the session. -/
  | queue
  /-- A collection beside the queue. -/
  | aside
  deriving DecidableEq, Repr

structure RenderMode where
  sink : Sink
  /-- Renders under the default policy instead of that of the session. -/
  ignoresPolicy : Bool
  deriving DecidableEq, Repr

structure Session where
  registry : Registry
  kept? : Option Registry
  builtin : Substitutes
  marshaled : Substitutes
  policy : Policy
  queue : RequestQueue
  aside : List Request

namespace Session

inductive Step where
  | add (addition : Registry.Addition)
  | findDefinition (namespaceName name : String)
  | countRows
  | showDefinition (handle : DefinitionHandle)
  | showReference (handle : ReferenceHandle)
  | keep
  | restore
  | simpleName (handle : Handle)
  | qualifiedName (handle : Handle)
  | setPolicy (policy : Policy)
  | setBuiltin (substitutes : Substitutes)
  | setMarshaled (substitutes : Substitutes)
  | render (mode : RenderMode) (descriptor : Descriptor)
  | renderType (mode : RenderMode) (blob : List UInt8)
  | renderField (mode : RenderMode) (blob : List UInt8)
  | renderMethod (mode : RenderMode) (blob : List UInt8)
  | writePrimitive (code : Primitive)
  | request (request : Request)
  | distinctRequests
  | countRequests
  | takeRequests

inductive Answer where
  | nothing
  | added (handle : Handle)
  | foundDefinition (handle? : Option DefinitionHandle)
  | rowCounts (definitions : List DefinitionHandle) (references : Nat)
  | definition (row? : Option Definition)
  | reference (row? : Option Reference)
  | simpleName (result : Except ProjectionError String)
  | qualifiedName (result : Except ProjectionError DottedName)
  | substituteCount (count : Nat)
  | type (result : Except ProjectionError TypeExpr)
  | method (result : Except ProjectionError (MethodSignature (Except ProjectionError TypeExpr)))
  | handle (handle : Handle)
  | requests (requests : List Request)
  | requestCount (count : Nat) (isEmpty : Bool)

/-- A session with an empty registry, the standard substitutes and the default
policy. -/
def start : Session where
  registry := .empty
  kept? := none
  builtin := .builtin
  marshaled := .marshaled
  policy := .default
  queue := .empty
  aside := []

/-- What rendering depends on in a given mode. -/
def renderSetting (session : Session) (mode : RenderMode) : RenderSetting where
  image := session.registry.image
  builtin := session.builtin
  marshaled := session.marshaled
  policy := if mode.ignoresPolicy then .default else session.policy

/-- Takes requests in at a sink. -/
def receive (session : Session) (sink : Sink) (requests : List Request) : Session :=
  match sink with
  | .queue => { session with queue := requests.foldl .record session.queue }
  | .aside => { session with aside := session.aside ++ requests }

/-- The account of a step: its answer, the trace it leaves and the state after
it. -/
structure Outcome where
  answer : Answer
  trace : List TraceEntry
  session : Session

def answering (session : Session) (answer : Answer) : Outcome :=
  ⟨answer, [], session⟩

def renderDescriptor (session : Session) (mode : RenderMode) (descriptor : Descriptor) :
    Outcome :=
  let rendering := descriptor.render (session.renderSetting mode)
  ⟨.type rendering.result, rendering.trace, session.receive mode.sink rendering.requests⟩

def renderDecoded (session : Session) (mode : RenderMode) (entry : Entry)
    (blob : List UInt8) (decoded : Except ProjectionError Descriptor) : Outcome :=
  let decoding := TraceEntry.decoding entry blob.length
  match decoded with
  | .error error => ⟨.type (.error error), [decoding], session⟩
  | .ok descriptor =>
      let outcome := session.renderDescriptor mode descriptor
      { outcome with trace := decoding :: outcome.trace }

/-- Renders every type of the method signature that a blob decodes to, the return
type first. -/
def renderDecodedMethod (session : Session) (mode : RenderMode) (blob : List UInt8) :
    Outcome :=
  let decoding := TraceEntry.decoding .method blob.length
  match Descriptor.decodeMethod blob with
  | .error error => ⟨.method (.error error), [decoding], session⟩
  | .ok signature =>
      let renderings := signature.map (·.render (session.renderSetting mode))
      { answer := .method (.ok (renderings.map (·.result)))
        trace := decoding :: renderings.types.flatMap (·.trace)
        session := session.receive mode.sink (renderings.types.flatMap (·.requests)) }

def step (session : Session) : Step → Outcome
  | .add addition =>
      let (handle, registry) := session.registry.add addition
      { session with registry }.answering (.added handle)
  | .findDefinition namespaceName name =>
      session.answering (.foundDefinition (session.registry.find? namespaceName name))
  | .countRows =>
      session.answering
        (.rowCounts session.registry.definitionHandles session.registry.references.size)
  | .showDefinition handle =>
      session.answering (.definition (session.registry.definition? handle))
  | .showReference handle =>
      session.answering (.reference (session.registry.reference? handle))
  | .keep =>
      { session with kept? := some session.registry }.answering .nothing
  | .restore =>
      { session with
        registry := session.kept?.getD session.registry
        kept? := none }.answering .nothing
  | .simpleName handle =>
      session.answering (.simpleName (session.registry.image.simpleName handle))
  | .qualifiedName handle =>
      session.answering (.qualifiedName (session.registry.image.qualifiedName handle))
  | .setPolicy policy => { session with policy }.answering .nothing
  | .setBuiltin substitutes =>
      { session with builtin := substitutes }.answering (.substituteCount substitutes.size)
  | .setMarshaled substitutes =>
      { session with marshaled := substitutes }.answering (.substituteCount substitutes.size)
  | .render mode descriptor => session.renderDescriptor mode descriptor
  | .renderType mode blob =>
      session.renderDecoded mode .type blob (Descriptor.decodeType blob)
  | .renderField mode blob =>
      session.renderDecoded mode .field blob (Descriptor.decodeField blob)
  | .renderMethod mode blob => session.renderDecodedMethod mode blob
  | .writePrimitive code =>
      session.answering (.type (.ok (code.typeExpr (session.policy.makes .nativeWidth))))
  | .request request =>
      { session with queue := session.queue.record request }.answering (.handle request.handle)
  | .distinctRequests => session.answering (.requests session.queue.distinct)
  | .countRequests =>
      session.answering (.requestCount session.queue.length session.queue.isEmpty)
  | .takeRequests =>
      let (requests, queue) := session.queue.takeAll
      { session with queue }.answering (.requests requests)

def steps (session : Session) : List Step → List Outcome
  | [] => []
  | next :: rest =>
      let outcome := session.step next
      outcome :: steps outcome.session rest

end Session

end TypeProjection

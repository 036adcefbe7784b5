import TypeProjection.Metadata.Handle

/-!
# Generation requests

A type that is written by its name has to be generated somewhere.  Whoever
writes it sends a request, and whoever generates types takes the requests in.
The same type may be requested many times.
-/

namespace TypeProjection

open TypeProjection.Metadata

/-- A type that has to be generated. -/
inductive Request where
  | definition (handle : DefinitionHandle)
  | reference (handle : ReferenceHandle)
  deriving DecidableEq, Repr

namespace Request

/-- The request for the type that a handle names, which must be a definition or
a reference. -/
def ofHandle? (handle : Handle) : Option Request :=
  match handle.kind with
  | .typeDefinition => some (.definition ⟨handle.row⟩)
  | .typeReference => some (.reference ⟨handle.row⟩)
  | _ => none

def handle : Request → Handle
  | definition handle => handle.toHandle
  | reference handle => handle.toHandle

/-- The token of the requested type. -/
def text (request : Request) : String :=
  request.handle.text

end Request

/-- The requests received so far, in the order of their arrival. -/
structure RequestQueue where
  requests : List Request
  deriving DecidableEq, Repr

namespace RequestQueue

def empty : RequestQueue :=
  ⟨[]⟩

def record (queue : RequestQueue) (request : Request) : RequestQueue :=
  ⟨queue.requests ++ [request]⟩

/-- The requests without repeats, in the order of their first arrival. -/
def distinct (queue : RequestQueue) : List Request :=
  queue.requests.eraseDups

def length (queue : RequestQueue) : Nat :=
  queue.requests.length

def isEmpty (queue : RequestQueue) : Bool :=
  queue.requests.isEmpty

def takeAll (queue : RequestQueue) : List Request × RequestQueue :=
  (queue.requests, empty)

end RequestQueue

end TypeProjection

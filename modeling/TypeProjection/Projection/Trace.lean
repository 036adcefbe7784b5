import TypeProjection.Descriptor.Basic
import TypeProjection.Projection.Policy
import TypeProjection.Projection.Request
import TypeProjection.Signature.Step
import TypeProjection.Source.TypeExpr

/-!
# Traces

Decoding and rendering leave a trace: a span is opened for every signature that
is decoded and for every node that is rendered, and an event tells each decision
on a handle.
-/

namespace TypeProjection

open TypeProjection.Signature TypeProjection.Source

/-- How much detail an entry of a trace is. -/
inductive TraceLevel where
  | debug
  | trace
  deriving DecidableEq, Repr

inductive TraceValue where
  | number (value : Nat)
  | text (value : String)
  deriving DecidableEq, Repr

/-- A span that was opened or an event that happened. -/
inductive TraceEntry where
  /-- A signature is decoded, with so many bytes remaining. -/
  | decoding (entry : Entry) (remaining : Nat)
  /-- A node of a descriptor is rendered. -/
  | rendering (descriptor : Descriptor) (policy : Policy)
  /-- The generation of a type is requested. -/
  | requesting (request : Request)
  /-- A substitute is written for a name. -/
  | substituted (name : String) (substitute : TypeExpr)
  /-- A name is written as a managed object. -/
  | asObject (name : String)
  /-- An interface is written as a managed reference. -/
  | asManagedReference (name : String)
  /-- An interface is written as a pointer. -/
  | asPointer (name : String)
  deriving DecidableEq, Repr

namespace TraceEntry

def isSpan : TraceEntry → Bool
  | decoding _ _ => true
  | rendering _ _ => true
  | _ => false

/-- The name of a span or the message of an event. -/
def label : TraceEntry → String
  | decoding .type _ => "decode_type"
  | decoding .field _ => "decode_field_signature"
  | decoding .method _ => "decode_method_signature"
  | rendering _ _ => "render"
  | requesting _ => "requesting generation"
  | substituted _ _ => "substituted"
  | asObject _ => "projected as object"
  | asManagedReference _ => "interface as managed reference"
  | asPointer _ => "interface as pointer"

def level : TraceEntry → TraceLevel
  | requesting _ => .debug
  | substituted _ _ => .debug
  | _ => .trace

def fields : TraceEntry → List (String × TraceValue)
  | decoding _ remaining => [("len", .number remaining)]
  | rendering descriptor policy =>
      [("descriptor", .text descriptor.text), ("policy", .text policy.describe)]
  | requesting request => [("request", .text request.text)]
  | substituted name substitute =>
      [("name", .text name), ("substitute", .text substitute.text)]
  | asObject name => [("name", .text name)]
  | asManagedReference name => [("name", .text name)]
  | asPointer name => [("name", .text name)]

end TraceEntry

/-- The trace of a decoding step that starts at a cursor. -/
def Signature.Step.trace (cursor : Cursor) : Step → List TraceEntry
  | .decode entry => [.decoding entry cursor.remaining]
  | .finish => []

end TypeProjection

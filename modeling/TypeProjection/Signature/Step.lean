import TypeProjection.Signature.Decoder

/-!
# Steps of a decoder

A decoder is driven by steps.  Three entry points read a whole signature, up
to the end of the blob; a fourth step only checks that nothing is left.  Steps
may follow one another in any order, also after a failure, each from where the
one before stopped.
-/

namespace TypeProjection.Signature

/-- The signatures that a blob may hold. -/
inductive Entry where
  | type
  | field
  | method
  deriving DecidableEq, Repr

inductive Step where
  | decode (entry : Entry)
  | finish
  deriving DecidableEq, Repr

inductive Answer (τ : Type) where
  | type (type : τ)
  | method (signature : MethodSignature τ)
  | finished
  deriving DecidableEq, Repr

namespace Decode

variable {τ : Type} (builder : Builder τ)

def entry : Entry → Decode τ (Answer τ)
  | .type => return .type (← wholeType builder)
  | .field => return .type (← wholeField builder)
  | .method => return .method (← wholeMethod builder)

def step : Step → Decode τ (Answer τ)
  | .decode signature => entry builder signature
  | .finish => do
      Read.finish
      return .finished

/-- Takes steps one after another, each from the cursor that the one before
left behind, and gives an account of each. -/
def steps (cursor : Cursor) : List Step → List (Run τ (Answer τ))
  | [] => []
  | next :: rest =>
      let run := (step builder next).run cursor
      run :: steps run.cursor rest

end Decode

end TypeProjection.Signature

import TypeProjection.Metadata.Handle
import TypeProjection.Signature.Error

/-!
# Projection errors

Why a signature or a descriptor cannot be projected: its blob does not decode, or
a handle in it does not name a type.
-/

namespace TypeProjection

open TypeProjection.Metadata TypeProjection.Signature

/-- Translating errors keeps successes. -/
theorem mapError_eq_ok_iff {ε ε' α : Type} {f : ε → ε'} {result : Except ε α} {value : α} :
    result.mapError f = .ok value ↔ result = .ok value := by
  cases result with
  | error error => exact ⟨nofun, nofun⟩
  | ok result =>
      change Except.ok result = Except.ok value ↔ _
      rw [Except.ok.injEq, Except.ok.injEq]

/-- A translated error comes from an error. -/
theorem mapError_eq_error_iff {ε ε' α : Type} {f : ε → ε'} {result : Except ε α} {failure : ε'} :
    result.mapError f = .error failure ↔ ∃ error, result = .error error ∧ f error = failure := by
  cases result with
  | error error =>
      change Except.error (f error) = Except.error failure ↔ _
      simp
  | ok value => exact ⟨nofun, nofun⟩

inductive ProjectionError where
  | unsupported (offset : Nat) (construct : Construct)
  | malformed (offset : Nat) (reason : Malformation)
  /-- The handle is neither a definition nor a reference. -/
  | unrecognizedKind (kind : Kind)
  /-- The handle names no row, or closes a loop of enclosing types. -/
  | dangling (handle : Handle)
  deriving DecidableEq, Repr

namespace ProjectionError

/-- A decoding error as a projection error of the same category. -/
def ofSignatureError : SignatureError → ProjectionError
  | .malformed offset reason => .malformed offset reason
  | .unsupported offset construct => .unsupported offset construct

theorem ofSignatureError_eq_malformed_iff {error : SignatureError} {offset : Nat}
    {reason : Malformation} :
    ofSignatureError error = .malformed offset reason ↔ error = .malformed offset reason := by
  cases error <;> simp [ofSignatureError]

theorem ofSignatureError_eq_unsupported_iff {error : SignatureError} {offset : Nat}
    {construct : Construct} :
    ofSignatureError error = .unsupported offset construct ↔
      error = .unsupported offset construct := by
  cases error <;> simp [ofSignatureError]

def message : ProjectionError → String
  | unsupported offset construct =>
      "unsupported signature shape `" ++ construct.name ++ "` at byte " ++ toString offset
  | malformed offset reason =>
      "malformed signature at byte " ++ toString offset ++ ": " ++ reason.message
  | unrecognizedKind kind =>
      "handle of kind " ++ kind.name ++ " does not name a type definition or reference"
  | dangling handle => "dangling handle " ++ handle.describe

end ProjectionError

end TypeProjection

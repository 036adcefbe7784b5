import TypeProjection.Signature.Builder
import TypeProjection.Signature.Cursor

/-!
# Runs of a decoder

A decoding computation reads from a cursor and hands productions over to a
builder.  It is a function from a cursor to a `Run`: its result, the cursor that
it leaves behind, and the calls that the builder received.  A computation that
fails still leaves a cursor, from which decoding may go on.
-/

namespace TypeProjection.Signature

/-- A production that was handed to a builder, and the offset at which that
production starts. -/
structure Call (τ : Type) where
  start : Nat
  production : Production τ
  deriving DecidableEq, Repr

/-- The account of a decoding computation. -/
structure Run (τ α : Type) where
  result : Except SignatureError α
  cursor : Cursor
  /-- What the builder received, in order; only the last call can be declined. -/
  calls : List (Call τ)

/-- A computation that reads from a cursor, hands productions over `τ` to a
builder and may fail. -/
structure Decode (τ α : Type) where
  run : Cursor → Run τ α

namespace Decode

variable {τ α β : Type}

theorem ext {left right : Decode τ α}
    (same : ∀ cursor, left.run cursor = right.run cursor) : left = right := by
  cases left
  cases right
  exact congrArg Decode.mk (funext same)

/-- Reads nothing and calls nothing. -/
protected def pure (value : α) : Decode τ α where
  run cursor := ⟨.ok value, cursor, []⟩

/-- One computation after another; a failure ends the whole. -/
protected def bind (first : Decode τ α) (next : α → Decode τ β) : Decode τ β where
  run cursor :=
    match first.run cursor with
    | ⟨.error error, after, calls⟩ => ⟨.error error, after, calls⟩
    | ⟨.ok value, after, calls⟩ =>
        let run := (next value).run after
        ⟨run.result, run.cursor, calls ++ run.calls⟩

instance : Monad (Decode τ) where
  pure := Decode.pure
  bind := Decode.bind

/-- A read is a computation without calls. -/
def ofRead (read : Read α) : Decode τ α where
  run cursor := ⟨(read.run cursor).1, (read.run cursor).2, []⟩

instance : MonadLift Read (Decode τ) where
  monadLift := ofRead

@[simp]
theorem run_pure (value : α) (cursor : Cursor) :
    (pure value : Decode τ α).run cursor = ⟨.ok value, cursor, []⟩ :=
  rfl

theorem run_bind (first : Decode τ α) (next : α → Decode τ β) (cursor : Cursor) :
    (first >>= next).run cursor =
      match first.run cursor with
      | ⟨.error error, after, calls⟩ => ⟨.error error, after, calls⟩
      | ⟨.ok value, after, calls⟩ =>
          ⟨((next value).run after).result, ((next value).run after).cursor,
            calls ++ ((next value).run after).calls⟩ :=
  rfl

@[simp]
theorem run_monadLift (read : Read α) (cursor : Cursor) :
    (monadLift read : Decode τ α).run cursor =
      ⟨(read.run cursor).1, (read.run cursor).2, []⟩ :=
  rfl

instance : LawfulMonad (Decode τ) :=
  LawfulMonad.mk' (Decode τ)
    (fun computation => Decode.ext fun cursor => by
      change (computation >>= fun value => pure (id value)).run cursor =
        computation.run cursor
      rw [run_bind]
      split <;> simp_all)
    (fun value next => Decode.ext fun cursor => by
      simp [run_bind])
    (fun first next last => Decode.ext fun cursor => by
      simp only [run_bind]
      rcases first.run cursor with ⟨result, after, calls⟩
      cases result with
      | error error => rfl
      | ok value =>
          simp only
          rcases (next value).run after with ⟨result, after, calls⟩
          cases result <;> simp)

/-- Hands a production over to a builder.  What the builder declines is
unsupported at the start of the production. -/
def call (builder : Builder τ) (start : Nat) (production : Production τ) : Decode τ τ where
  run cursor :=
    ⟨(builder.build production).mapError (.unsupported start), cursor,
      [⟨start, production⟩]⟩

/-- Fails because of an unsupported construct at a given offset. -/
def unsupported (offset : Nat) (construct : Construct) : Decode τ α :=
  ofRead (.fail (.unsupported offset construct))

end Decode

end TypeProjection.Signature

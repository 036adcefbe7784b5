import TypeProjection.Signature.Error

/-!
# Cursors over a blob

A cursor is a place in a blob: the offset from its start and the bytes not yet
read.  A read moves the cursor forward, one byte at a time, and one that fails
leaves the cursor behind the bytes that it has passed.
-/

namespace TypeProjection.Signature

/-- A place in a blob. -/
structure Cursor where
  offset : Nat
  rest : List UInt8
  deriving DecidableEq, Repr

namespace Cursor

def start (blob : List UInt8) : Cursor :=
  ⟨0, blob⟩

def remaining (cursor : Cursor) : Nat :=
  cursor.rest.length

def isAtEnd (cursor : Cursor) : Bool :=
  cursor.rest.isEmpty

/-- The error that something is malformed at this place. -/
def malformed (cursor : Cursor) (reason : Malformation) : SignatureError :=
  .malformed cursor.offset reason

end Cursor

/-- A computation that reads from a cursor and may fail. -/
structure Read (α : Type) where
  run : Cursor → Except SignatureError α × Cursor

namespace Read

variable {α β : Type}

theorem ext {left right : Read α} (same : ∀ cursor, left.run cursor = right.run cursor) :
    left = right := by
  cases left
  cases right
  exact congrArg Read.mk (funext same)

/-- Reads nothing. -/
protected def pure (value : α) : Read α where
  run cursor := (.ok value, cursor)

/-- One read after another; a failure ends the whole. -/
protected def bind (first : Read α) (next : α → Read β) : Read β where
  run cursor :=
    match first.run cursor with
    | (.error error, after) => (.error error, after)
    | (.ok value, after) => (next value).run after

instance : Monad Read where
  pure := Read.pure
  bind := Read.bind

@[simp]
theorem run_pure (value : α) (cursor : Cursor) :
    (pure value : Read α).run cursor = (.ok value, cursor) :=
  rfl

theorem run_bind (first : Read α) (next : α → Read β) (cursor : Cursor) :
    (first >>= next).run cursor =
      match first.run cursor with
      | (.error error, after) => (.error error, after)
      | (.ok value, after) => (next value).run after :=
  rfl

theorem run_bind_ok {first : Read α} {next : α → Read β} {cursor after : Cursor}
    {value : α} (read : first.run cursor = (.ok value, after)) :
    (first >>= next).run cursor = (next value).run after := by
  rw [run_bind, read]

theorem run_bind_error {first : Read α} {next : α → Read β} {cursor after : Cursor}
    {error : SignatureError} (failed : first.run cursor = (.error error, after)) :
    (first >>= next).run cursor = (.error error, after) := by
  rw [run_bind, failed]

instance : LawfulMonad Read :=
  LawfulMonad.mk' Read
    (fun read => Read.ext fun cursor => by
      change (read >>= fun value => pure (id value)).run cursor = read.run cursor
      rw [run_bind]
      split <;> simp_all)
    (fun _ _ => rfl)
    (fun first next last => Read.ext fun cursor => by
      simp only [run_bind]
      rcases first.run cursor with ⟨result, after⟩
      cases result <;> rfl)

def fail (error : SignatureError) : Read α where
  run cursor := (.error error, cursor)

def cursor : Read Cursor where
  run cursor := (.ok cursor, cursor)

def offset : Read Nat := do
  return (← cursor).offset

/-- Fails because of something malformed at a given offset. -/
def malformedAt (offset : Nat) (reason : Malformation) : Read α :=
  fail (.malformed offset reason)

/-- Fails because of something malformed at the current place. -/
def malformed (reason : Malformation) : Read α := do
  fail ((← cursor).malformed reason)

/-- The next byte, which stays unread. -/
def peek : Read UInt8 := do
  match (← cursor).rest with
  | [] => malformed .unexpectedEnd
  | byte :: _ => return byte

def skip : Read Unit where
  run cursor := (.ok (), ⟨cursor.offset + 1, cursor.rest.tail⟩)

def byte : Read UInt8 := do
  let next ← peek
  skip
  return next

/-- Fails if bytes are left unread. -/
def finish : Read Unit := do
  let cursor ← cursor
  if cursor.isAtEnd then return ()
  else malformed (.trailingBytes cursor.remaining)

@[simp]
theorem run_fail (error : SignatureError) (cursor : Cursor) :
    (fail error : Read α).run cursor = (.error error, cursor) :=
  rfl

@[simp]
theorem run_offset (cursor : Cursor) : offset.run cursor = (.ok cursor.offset, cursor) :=
  rfl

@[simp]
theorem run_malformedAt (offset : Nat) (reason : Malformation) (cursor : Cursor) :
    (malformedAt offset reason : Read α).run cursor =
      (.error (.malformed offset reason), cursor) :=
  rfl

@[simp]
theorem run_malformed (reason : Malformation) (cursor : Cursor) :
    (malformed reason : Read α).run cursor =
      (.error (.malformed cursor.offset reason), cursor) :=
  rfl

@[simp]
theorem run_peek_nil (offset : Nat) :
    peek.run ⟨offset, []⟩ = (.error (.malformed offset .unexpectedEnd), ⟨offset, []⟩) :=
  rfl

@[simp]
theorem run_peek_cons (offset : Nat) (next : UInt8) (rest : List UInt8) :
    peek.run ⟨offset, next :: rest⟩ = (.ok next, ⟨offset, next :: rest⟩) :=
  rfl

@[simp]
theorem run_byte_nil (offset : Nat) :
    byte.run ⟨offset, []⟩ = (.error (.malformed offset .unexpectedEnd), ⟨offset, []⟩) :=
  rfl

@[simp]
theorem run_byte_cons (offset : Nat) (next : UInt8) (rest : List UInt8) :
    byte.run ⟨offset, next :: rest⟩ = (.ok next, ⟨offset + 1, rest⟩) :=
  rfl

@[simp]
theorem run_finish_nil (offset : Nat) : finish.run ⟨offset, []⟩ = (.ok (), ⟨offset, []⟩) :=
  rfl

@[simp]
theorem run_finish_cons (offset : Nat) (next : UInt8) (rest : List UInt8) :
    finish.run ⟨offset, next :: rest⟩ =
      (.error (.malformed offset (.trailingBytes (rest.length + 1))),
        ⟨offset, next :: rest⟩) :=
  rfl

end Read

/-- Repeats an action and collects its results in order. -/
def times {m : Type → Type} [Monad m] {α : Type} : Nat → m α → m (List α)
  | 0, _ => return []
  | count + 1, action => do
      let head ← action
      let tail ← times count action
      return head :: tail

end TypeProjection.Signature

import TypeProjection.Proofs.Signature.Displacement
import TypeProjection.Signature.Spelling

/-!
# A decoder goes on after any outcome

Steps are taken one after another, whatever became of the ones before.  Each is taken as
by a new decoder that is given only the bytes from there on, but for the offsets, which
count from the start of the blob.

A decoder may also count the types that it is inside of, instead of passing the levels
that are left to the types inside.  However a step ends, the counter is back at zero, so
it never tells such a decoder from the other one.
-/

namespace TypeProjection.Signature

namespace Decode

variable {τ α : Type}

/-! ## Counting the types around a place -/

/-- Runs a computation that is put together from an inner one, where the inner one reads
a counter and leaves a counter behind. -/
def Outline.count (nested : Nat → Cursor → Run τ τ × Nat) {α : Type}
    {near far : Decode τ τ → Decode τ α} :
    Outline 0 near far → Nat → Cursor → Run τ α × Nat
  | @Outline.own _ _ _ computation _ _, depth, cursor => (computation.run cursor, depth)
  | .inner, depth, cursor => nested depth cursor
  | .offset next, depth, cursor => (next cursor.offset).count nested depth cursor
  | .bind first next, depth, cursor =>
      match first.count nested depth cursor with
      | (⟨.error error, after, calls⟩, depth) => (⟨.error error, after, calls⟩, depth)
      | (⟨.ok value, after, calls⟩, depth) =>
          let (run, depth) := (next value).count nested depth after
          (⟨run.result, run.cursor, calls ++ run.calls⟩, depth)

/-- Decodes a type and counts it meanwhile.  Where the counter is at the limit, the type
is refused; otherwise the counter goes up by one before the type is decoded, and down by
one afterwards, whatever became of the type. -/
def counted (builder : Builder τ) (nested : Nat → Cursor → Run τ τ × Nat) (depth : Nat)
    (cursor : Cursor) : Run τ τ × Nat :=
  if maxNesting ≤ depth then
    ((liftM (Read.malformed .nestingTooDeep : Read τ) : Decode τ τ).run cursor, depth)
  else
    let (run, depth) := (Outline.production builder).count nested (depth + 1) cursor
    (run, depth - 1)

/-- Types that are counted inside one another, up to some number of times; `beyond` is
what is done for types further inside. -/
def countedWithin (builder : Builder τ) (beyond : Nat → Cursor → Run τ τ × Nat) :
    Nat → Nat → Cursor → Run τ τ × Nat
  | 0 => beyond
  | times + 1 => counted builder (countedWithin builder beyond times)

def countedStep (builder : Builder τ) (beyond : Nat → Cursor → Run τ τ × Nat) (next : Step) :
    Nat → Cursor → Run τ (Answer τ) × Nat :=
  (Outline.step next).count (countedWithin builder beyond (maxNesting + 1))

/-- Takes steps one after another with a counter, and gives an account of each together
with the counter after it. -/
def countedSteps (builder : Builder τ) (beyond : Nat → Cursor → Run τ τ × Nat) (depth : Nat)
    (cursor : Cursor) : List Step → List (Run τ (Answer τ) × Nat)
  | [] => []
  | next :: rest =>
      let taken := countedStep builder beyond next depth cursor
      taken :: countedSteps builder beyond taken.2 taken.1.cursor rest

variable {builder : Builder τ} {beyond : Nat → Cursor → Run τ τ × Nat}

/-- Where the inner computation leaves the counter as it was, so does the whole. -/
theorem Outline.count_eq {near far : Decode τ τ → Decode τ α} (outline : Outline 0 near far)
    {nested : Nat → Cursor → Run τ τ × Nat} {inner : Decode τ τ} {depth : Nat}
    (hnested : ∀ cursor, nested depth cursor = (inner.run cursor, depth)) (cursor : Cursor) :
    outline.count nested depth cursor = ((near inner).run cursor, depth) := by
  induction outline generalizing cursor with
  | own hsame => rfl
  | inner => exact hnested cursor
  | offset next ih => exact ih cursor.offset cursor
  | @bind _ _ near _ _ _ first next ihFirst ihNext =>
      rw [Outline.count, ihFirst, run_bind]
      rcases (near inner).run cursor with ⟨error | value, after, calls⟩
      · rfl
      · simp only [ihNext]

/-- A counter below the limit plays the part of the levels that are left, and it is
restored. -/
theorem countedWithin_eq {levels depth times : Nat} (hlevels : depth + levels = maxNesting)
    (htimes : levels < times) (cursor : Cursor) :
    countedWithin builder beyond times depth cursor =
      ((typeWithin builder levels).run cursor, depth) := by
  obtain ⟨times, rfl⟩ := Nat.exists_eq_succ_of_ne_zero (Nat.ne_zero_of_lt htimes)
  induction levels generalizing depth times cursor with
  | zero =>
      have hlimit : maxNesting ≤ depth := Nat.le_of_eq hlevels.symm
      rw [countedWithin, counted, if_pos hlimit]
      rfl
  | succ levels ih =>
      have hroom : ¬ maxNesting ≤ depth := by omega
      obtain ⟨times, rfl⟩ := Nat.exists_eq_succ_of_ne_zero (n := times) (by omega)
      -- The types inside start with a counter that is greater by one.
      have hinner (place : Cursor) : countedWithin builder beyond (times + 1) (depth + 1) place =
          ((typeWithin builder levels).run place, depth + 1) :=
        ih (by omega) place times (by omega)
      rw [countedWithin, counted, if_neg hroom, Outline.count_eq _ hinner]
      rfl

theorem countedStep_eq (next : Step) (cursor : Cursor) :
    countedStep builder beyond next 0 cursor = ((step builder next).run cursor, 0) := by
  have htype (place : Cursor) :
      countedWithin builder beyond (maxNesting + 1) 0 place = ((type builder).run place, 0) :=
    countedWithin_eq (Nat.zero_add maxNesting) (Nat.lt_succ_self maxNesting) place
  rw [countedStep, Outline.count_eq _ htype, step_eq]

/-- Between steps the counter is at zero, and so every step is the one without a
counter. -/
theorem countedSteps_eq (script : List Step) (cursor : Cursor) :
    countedSteps builder beyond 0 cursor script =
      (steps builder cursor script).map fun run => (run, 0) := by
  induction script generalizing cursor with
  | nil => rfl
  | cons next script ih =>
      rw [countedSteps, steps, countedStep_eq]
      simp only [ih, List.map_cons]

end Decode

/-- A decoder can be used again after any outcome.  Steps are taken on a blob one after
another, each of which may have failed in any way.  The offset never decreases and never
passes the end of the blob; the counter of the types around a place is at zero after
every step; and each step is taken as a new decoder takes it over the bytes from there
on, with the offset where it starts added to every offset. -/
theorem steps_resume {builder : Builder τ} {blob : List UInt8} {script : List Step}
    {earlier later : List (Run τ (Answer τ))} {run : Run τ (Answer τ)}
    (hruns : Decode.steps builder (.start blob) script = earlier ++ run :: later) :
    let before := Decode.reached (.start blob) earlier
    (before.offset ≤ run.cursor.offset ∧ run.cursor.offset ≤ blob.length) ∧
    (∀ beyond, Decode.countedSteps builder beyond 0 (.start blob) script =
      (earlier ++ run :: later).map fun run => (run, 0)) ∧
    ∃ step, script[earlier.length]? = some step ∧
      run = ((Decode.step builder step).run
        (.start (blob.drop before.offset))).ahead before.offset := by
  intro before
  obtain ⟨step, hstep, rfl⟩ := Decode.step_of_steps hruns
  obtain ⟨consumed, hconsumed⟩ := Decode.passes_steps hruns
  obtain ⟨bytes, hbytes⟩ := Decode.passes_step builder step before
  have hwithin : before.offset ≤ blob.length ∧
      before = (Cursor.start (blob.drop before.offset)).ahead before.offset :=
    hconsumed.within
  have hstop := (hconsumed.trans hbytes).within
  refine ⟨⟨hbytes.offset_le, hstop.1⟩, ?_, step, hstep, ?_⟩
  · intro beyond
    rw [Decode.countedSteps_eq, hruns]
  · -- The new decoder stands as far behind as the bytes that it is not given.
    have hdisplaced : Decode.Displaced before.offset (Decode.step builder step)
        (Decode.step builder step) := Decode.displaced_step builder step
    calc
      _ = (Decode.step builder step).run before := rfl
      _ = (Decode.step builder step).run
          ((Cursor.start (blob.drop before.offset)).ahead before.offset) :=
        congrArg (Decode.step builder step).run hwithin.2
      _ = _ := hdisplaced.run _

/-- A vector is declined inside a pointer.  The step after it meets a byte that no type
starts with, which is the first byte of a new decoder. -/
theorem steps_resume_plain :
    (∀ beyond, Decode.countedSteps Builder.plain beyond 0 (.start [0x0F, 0x1D, 0x08, 0xFF])
      [.decode .type, .decode .type] =
        [(⟨.error (.unsupported 1 .vector), ⟨3, [0xFF]⟩,
            [⟨2, .core (.primitive .int32)⟩, ⟨1, .optional (.vector "Int32")⟩]⟩, 0),
          (⟨.error (.malformed 3 (.unknownElementType 0xFF)), ⟨4, []⟩, []⟩, 0)]) ∧
    (⟨.error (.malformed 3 (.unknownElementType 0xFF)), ⟨4, []⟩, []⟩ : Run String _) =
      ((Decode.step Builder.plain (.decode .type)).run (.start [0xFF])).ahead 3 := by
  have hruns : Decode.steps Builder.plain (.start [0x0F, 0x1D, 0x08, 0xFF])
      [.decode .type, .decode .type] =
        [⟨.error (.unsupported 1 .vector), ⟨3, [0xFF]⟩,
          [⟨2, .core (.primitive .int32)⟩, ⟨1, .optional (.vector "Int32")⟩]⟩] ++
        ⟨.error (.malformed 3 (.unknownElementType 0xFF)), ⟨4, []⟩, []⟩ :: [] := by
    rfl
  obtain ⟨-, hcounted, step, hstep, hrun⟩ := steps_resume hruns
  obtain rfl := Option.some.inj hstep
  exact ⟨hcounted, hrun⟩

end TypeProjection.Signature

import TypeProjection.Proofs.Signature.Passage
import TypeProjection.Signature.Step

/-!
# Decoding from a place further on

Nothing of a decoder depends on where in a blob it stands.  From a place with the same
bytes left, a distance further on, every computation has the same outcome, with all
offsets greater by the distance.  Offsets that were read earlier enter a computation as
data, so two computations are compared that hold offsets a distance apart.

The functions of the decoder are put together from reads and calls of their own and from
runs of the computation that decodes a type inside.  This outline is kept as data, and
what holds of all its parts is passed on along it.  That a decoder only moves forward is
passed on together with the distance, also over steps one after another.
-/

namespace TypeProjection.Signature

variable {τ α β : Type}

/-! ## Places a distance ahead -/

/-- The place a distance further on with the same bytes left. -/
def Cursor.ahead (distance : Nat) (cursor : Cursor) : Cursor :=
  ⟨distance + cursor.offset, cursor.rest⟩

/-- A place that is reached from the start of a blob lies within it, and what is left
there is a blob of its own, as far ahead as the place. -/
theorem Cursor.Passes.within {blob bytes : List UInt8} {after : Cursor}
    (hpasses : (Cursor.start blob).Passes bytes after) :
    after.offset ≤ blob.length ∧
      after = (Cursor.start (blob.drop after.offset)).ahead after.offset := by
  have hblob : blob = bytes ++ after.rest := hpasses.rest
  have hoffset : after.offset = bytes.length := by
    rw [hpasses.offset, Cursor.start, Nat.zero_add]
  constructor
  · rw [hoffset, hblob, List.length_append]
    exact Nat.le_add_right bytes.length after.rest.length
  · have hrest : blob.drop after.offset = after.rest := by
      rw [hoffset, hblob, List.drop_left]
    rw [hrest]
    rfl

def SignatureError.ahead (distance : Nat) : SignatureError → SignatureError
  | malformed offset reason => malformed (distance + offset) reason
  | unsupported offset construct => unsupported (distance + offset) construct

def Call.ahead (distance : Nat) (call : Call τ) : Call τ :=
  ⟨distance + call.start, call.production⟩

/-- The account of the same run a distance further on: every offset in it is greater by
the distance, and all else is equal. -/
def Run.ahead (distance : Nat) (run : Run τ α) : Run τ α :=
  ⟨run.result.mapError (.ahead distance), run.cursor.ahead distance,
    run.calls.map (.ahead distance)⟩

theorem Run.ahead_ok (distance : Nat) (value : α) (cursor : Cursor) (calls : List (Call τ)) :
    Run.ahead distance ⟨.ok value, cursor, calls⟩ =
      ⟨.ok value, cursor.ahead distance, calls.map (.ahead distance)⟩ :=
  rfl

namespace Decode

variable {distance : Nat}

/-- The second computation does a distance ahead what the first one does, which only
moves forward. -/
structure Displaced (distance : Nat) (near far : Decode τ α) : Prop where
  run : ∀ cursor, far.run (cursor.ahead distance) = (near.run cursor).ahead distance
  forward : ∀ cursor : Cursor, ∃ bytes, cursor.Passes bytes (near.run cursor).cursor

theorem Displaced.bind {near far : Decode τ α} {next farNext : α → Decode τ β}
    (hfirst : Displaced distance near far)
    (hnext : ∀ value, Displaced distance (next value) (farNext value)) :
    Displaced distance (near >>= next) (far >>= farNext) where
  run cursor := by
    rw [run_bind, run_bind]
    rw [hfirst.run]
    rcases near.run cursor with ⟨error | value, middle, calls⟩
    · rfl
    · simp only [Run.ahead_ok, (hnext value).run]
      simp only [Run.ahead, List.map_append]
  forward cursor := by
    obtain ⟨head, hhead⟩ := hfirst.forward cursor
    rw [run_bind]
    generalize near.run cursor = run at hhead
    obtain ⟨error | value, middle, calls⟩ := run
    · exact ⟨head, hhead⟩
    · obtain ⟨tail, htail⟩ := (hnext value).forward middle
      exact ⟨head ++ tail, hhead.trans htail⟩

/-- An offset that is read further on is greater by the distance. -/
theorem Displaced.offset {near far : Nat → Decode τ α}
    (hnext : ∀ start, Displaced distance (near start) (far (distance + start))) :
    Displaced distance ((liftM Read.offset : Decode τ Nat) >>= near)
      ((liftM Read.offset : Decode τ Nat) >>= far) where
  run cursor := (hnext cursor.offset).run cursor
  forward cursor := (hnext cursor.offset).forward cursor

theorem displaced_pure (value : α) :
    Displaced distance (pure value : Decode τ α) (pure value) where
  run _ := rfl
  forward cursor := ⟨[], .refl cursor⟩

theorem Displaced.times {near far : Decode τ α} (hitem : Displaced distance near far)
    (count : Nat) :
    Displaced distance (Signature.times count near) (Signature.times count far) := by
  induction count with
  | zero => exact displaced_pure []
  | succ count ih =>
      apply hitem.bind
      intro head
      apply ih.bind
      intro tail
      exact displaced_pure (head :: tail)

/-! ## Computations that stay where they are -/

theorem displaced_malformedAt (start : Nat) (reason : Malformation) :
    Displaced distance (liftM (Read.malformedAt start reason : Read α) : Decode τ α)
      (liftM (Read.malformedAt (distance + start) reason : Read α)) where
  run _ := rfl
  forward cursor := ⟨[], .refl cursor⟩

theorem displaced_malformed (reason : Malformation) :
    Displaced distance (liftM (Read.malformed reason : Read α) : Decode τ α)
      (liftM (Read.malformed reason : Read α)) where
  run _ := rfl
  forward cursor := ⟨[], .refl cursor⟩

theorem displaced_unsupported (start : Nat) (construct : Construct) :
    Displaced distance (unsupported start construct : Decode τ α)
      (unsupported (distance + start) construct) where
  run _ := rfl
  forward cursor := ⟨[], .refl cursor⟩

theorem displaced_call (builder : Builder τ) (start : Nat) (production : Production τ) :
    Displaced distance (call builder start production)
      (call builder (distance + start) production) where
  run cursor := by
    cases hbuild : builder.build production with
    | ok value =>
        rw [run_call_ok hbuild, run_call_ok hbuild]
        rfl
    | error construct =>
        rw [run_call_error hbuild, run_call_error hbuild]
        rfl
  forward cursor := ⟨[], .refl cursor⟩

theorem displaced_finish :
    Displaced distance (liftM Read.finish : Decode τ Unit) (liftM Read.finish) where
  run cursor := by
    rcases cursor with ⟨offset, _ | ⟨next, rest⟩⟩ <;> rfl
  forward cursor := by
    rcases cursor with ⟨offset, _ | ⟨next, rest⟩⟩
    · exact ⟨[], .refl _⟩
    · exact ⟨[], .refl _⟩

/-! ## Reads -/

theorem displaced_peek :
    Displaced distance (liftM Read.peek : Decode τ UInt8) (liftM Read.peek) where
  run cursor := by
    rcases cursor with ⟨offset, _ | ⟨next, rest⟩⟩ <;> rfl
  forward cursor := by
    rcases cursor with ⟨offset, _ | ⟨next, rest⟩⟩
    · exact ⟨[], .refl _⟩
    · exact ⟨[], .refl _⟩

theorem displaced_byte :
    Displaced distance (liftM Read.byte : Decode τ UInt8) (liftM Read.byte) where
  run cursor := by
    rcases cursor with ⟨offset, _ | ⟨next, rest⟩⟩ <;> rfl
  forward cursor := by
    rcases cursor with ⟨offset, _ | ⟨next, rest⟩⟩
    · exact ⟨[], .refl _⟩
    · exact ⟨[next], rfl, rfl⟩

theorem displaced_compressed :
    Displaced distance (liftM Read.compressed : Decode τ (Width × Nat))
      (liftM Read.compressed) := by
  simp only [Read.compressed, liftM_bind]
  apply Displaced.offset
  intro start
  apply displaced_byte.bind
  intro first
  cases Width.ofLead? first with
  | none => exact displaced_malformedAt start .invalidCompressedInteger
  | some width =>
      simp only [liftM_bind, liftM_times, liftM_pure]
      apply (displaced_byte.times width.extraBytes).bind
      intro extra
      exact displaced_pure (width, width.payload first extra)

theorem displaced_unsigned :
    Displaced distance (liftM Read.unsigned : Decode τ UInt32) (liftM Read.unsigned) := by
  simp only [Read.unsigned, liftM_bind, liftM_pure]
  apply displaced_compressed.bind
  intro read
  exact displaced_pure (UInt32.ofNat read.2)

theorem displaced_signed :
    Displaced distance (liftM Read.signed : Decode τ Int32) (liftM Read.signed) := by
  simp only [Read.signed, liftM_bind]
  apply Displaced.offset
  intro start
  apply displaced_compressed.bind
  intro read
  cases narrow? (read.1.signedPayload read.2) with
  | some value =>
      rw [liftM_pure]
      exact displaced_pure value
  | none => exact displaced_malformedAt start .invalidCompressedInteger

theorem displaced_countedUpTo {item : Read α}
    (hitem : Displaced distance (liftM item : Decode τ α) (liftM item)) (limit : UInt32)
    (start : Nat) :
    Displaced distance (liftM (Read.countedUpTo limit start item) : Decode τ (List α))
      (liftM (Read.countedUpTo limit (distance + start) item)) := by
  simp only [Read.countedUpTo, liftM_bind]
  apply displaced_unsigned.bind
  intro count
  by_cases hlimit : limit < count
  · rw [if_pos hlimit, if_pos hlimit]
    exact displaced_malformedAt start .invalidDimensions
  · rw [if_neg hlimit, if_neg hlimit, liftM_times]
    exact hitem.times count.toNat

theorem displaced_dimensions :
    Displaced distance (liftM Read.dimensions : Decode τ Dimensions)
      (liftM Read.dimensions) := by
  simp only [Read.dimensions, liftM_bind]
  apply Displaced.offset
  intro start
  apply displaced_unsigned.bind
  intro rank
  by_cases hzero : rank = 0
  · rw [if_pos hzero, if_pos hzero]
    exact displaced_malformedAt start .invalidDimensions
  · rw [if_neg hzero, if_neg hzero]
    simp only [liftM_bind, liftM_pure]
    apply (displaced_countedUpTo displaced_unsigned rank start).bind
    intro sizes
    apply (displaced_countedUpTo displaced_signed rank start).bind
    intro lowerBounds
    exact displaced_pure (Dimensions.mk rank sizes lowerBounds)

theorem displaced_header (kind : HeaderKind) :
    Displaced distance (liftM (Read.header kind) : Decode τ Header)
      (liftM (Read.header kind)) := by
  simp only [Read.header, liftM_bind]
  apply Displaced.offset
  intro start
  apply displaced_byte.bind
  intro byte
  by_cases hkind : (Header.mk byte).kind? = some kind
  · rw [if_pos hkind, if_pos hkind, liftM_pure]
    exact displaced_pure (Header.mk byte)
  · rw [if_neg hkind, if_neg hkind]
    exact displaced_malformedAt start (.unexpectedHeader byte)

theorem displaced_namedForm :
    Displaced distance (liftM namedForm : Decode τ NamedForm) (liftM namedForm) := by
  simp only [namedForm, liftM_bind]
  apply Displaced.offset
  intro start
  apply displaced_byte.bind
  intro byte
  split
  · exact displaced_pure NamedForm.classType
  · exact displaced_pure NamedForm.valueType
  · exact displaced_malformedAt start (.unknownElementType byte)

theorem displaced_named (builder : Builder τ) (form : NamedForm) (start : Nat) :
    Displaced distance (named builder form start) (named builder form (distance + start)) := by
  apply Displaced.offset
  intro codedStart
  apply displaced_unsigned.bind
  intro coded
  cases named? coded form with
  | none => exact displaced_malformedAt codedStart (.invalidCodedIndex coded)
  | some production => exact displaced_call builder start production

/-! ## Outlines -/

/-- How a computation is put together from steps of its own and from runs of an inner
computation, at a place and a distance further on. -/
inductive Outline (distance : Nat) : {α : Type} → (Decode τ τ → Decode τ α) →
    (Decode τ τ → Decode τ α) → Type 1
  | own {α : Type} {near far : Decode τ α} (hsame : Displaced distance near far) :
      Outline distance (fun _ => near) (fun _ => far)
  | inner : Outline distance (fun inner => inner) (fun inner => inner)
  | offset {α : Type} {near far : Nat → Decode τ τ → Decode τ α}
      (next : ∀ start, Outline distance (near start) (far (distance + start))) :
      Outline distance
        (fun inner => (liftM Read.offset : Decode τ Nat) >>= fun start => near start inner)
        (fun inner => (liftM Read.offset : Decode τ Nat) >>= fun start => far start inner)
  | bind {α β : Type} {near far : Decode τ τ → Decode τ α}
      {nearNext farNext : α → Decode τ τ → Decode τ β}
      (first : Outline distance near far)
      (next : ∀ value, Outline distance (nearNext value) (farNext value)) :
      Outline distance (fun inner => near inner >>= fun value => nearNext value inner)
        (fun inner => far inner >>= fun value => farNext value inner)

namespace Outline

/-- What is put together from displaced parts is displaced. -/
theorem displaced {near far : Decode τ τ → Decode τ α} (outline : Outline distance near far)
    {inner farInner : Decode τ τ} (hinner : Displaced distance inner farInner) :
    Displaced distance (near inner) (far farInner) := by
  induction outline with
  | own hsame => exact hsame
  | inner => exact hinner
  | offset next ih => exact Displaced.offset ih
  | bind first next ihFirst ihNext => exact ihFirst.bind ihNext

/-- Either of two branches, by a condition that both places agree on. -/
def ite {condition : Prop} [decision : Decidable condition]
    {near far nearElse farElse : Decode τ τ → Decode τ α}
    (holds : Outline distance near far) (fails : Outline distance nearElse farElse) :
    Outline distance (fun inner => if condition then near inner else nearElse inner)
      (fun inner => if condition then far inner else farElse inner) :=
  match decision with
  | isTrue _ => holds
  | isFalse _ => fails

def times {near far : Decode τ τ → Decode τ α} (item : Outline distance near far) :
    (count : Nat) → Outline distance (fun inner => Signature.times count (near inner))
      (fun inner => Signature.times count (far inner))
  | 0 => .own (displaced_pure [])
  | count + 1 =>
      .bind item fun head => .bind (item.times count) fun tail =>
        .own (displaced_pure (head :: tail))

variable (builder : Builder τ)

/-- A production over a single part. -/
def called {near far : Decode τ τ → Decode τ α} (part : Outline distance near far)
    (start : Nat) (wrap : α → Production τ) :
    Outline distance
      (fun inner => near inner >>= fun value => call builder start (wrap value))
      (fun inner => far inner >>= fun value => call builder (distance + start) (wrap value)) :=
  .bind part fun value => .own (displaced_call builder start (wrap value))

def parameter :
    Outline distance (Decode.parameter : Decode τ τ → Decode τ τ) Decode.parameter :=
  .bind (.own displaced_peek) fun _ =>
    .ite (.offset fun start => .own (displaced_unsupported start .sentinel)) .inner

/-- The outline of what follows the number of generic parameters of a method. -/
def methodTypes (header : Header) (genericArity : UInt32) :
    Outline distance (fun inner : Decode τ τ => Decode.methodTypes inner header genericArity)
      (Decode.methodTypes · header genericArity) :=
  .bind (.own displaced_unsigned) fun count => .bind .inner fun returnType =>
    .bind (parameter.times count.toNat) fun parameters =>
      .own (displaced_pure (MethodSignature.mk header genericArity returnType parameters))

def method :
    Outline distance (Decode.method : Decode τ τ → Decode τ (MethodSignature τ))
      Decode.method :=
  .bind (.own (displaced_header .method)) fun header =>
    .ite (.bind (.own displaced_unsigned) fun genericArity => methodTypes header genericArity)
      (methodTypes header 0)

def modified (start : Nat) (isRequired : Bool) :
    Outline distance (Decode.modified builder · start isRequired)
      (Decode.modified builder · (distance + start) isRequired) :=
  .offset fun modifierStart =>
    .bind (.own (displaced_named builder .classType modifierStart)) fun modifier =>
      .called builder .inner start fun unmodified =>
        .optional (.modified modifier unmodified isRequired)

/-- The outline of the remainder of a production behind its first byte. -/
def composite (start : Nat) : (element : ElementType) →
    Outline distance (Decode.composite builder · start element)
      (Decode.composite builder · (distance + start) element)
  | .pointer => .called builder .inner start fun element => .core (.pointer element)
  | .array =>
      .bind .inner fun element =>
        .called builder (.own displaced_dimensions) start fun dimensions =>
          .core (.array element dimensions)
  | .classType => .own (displaced_named builder .classType start)
  | .valueType => .own (displaced_named builder .valueType start)
  | .vector => .called builder .inner start fun element => .optional (.vector element)
  | .byReference =>
      .called builder .inner start fun element => .optional (.byReference element)
  | .pinned => .called builder .inner start fun element => .optional (.pinned element)
  | .typeVariable =>
      .called builder (.own displaced_unsigned) start fun index =>
        .optional (.typeVariable index)
  | .methodVariable =>
      .called builder (.own displaced_unsigned) start fun index =>
        .optional (.methodVariable index)
  | .genericInstance =>
      .offset fun genericStart => .bind (.own displaced_namedForm) fun form =>
        .bind (.own (displaced_named builder form genericStart)) fun generic =>
          .bind (.own displaced_unsigned) fun count =>
            .called builder (.times .inner count.toNat) start fun arguments =>
              .optional (.genericInstance generic arguments)
  | .functionPointer =>
      .called builder method start fun signature => .optional (.functionPointer signature)
  | .requiredModifier => modified builder start true
  | .optionalModifier => modified builder start false
  | .typedReference => .own (displaced_unsupported start .typedReference)
  | .sentinel => .own (displaced_malformedAt start _)

def production :
    Outline distance (Decode.production builder) (Decode.production builder) :=
  .offset fun start => .bind (.own displaced_byte) fun lead => by
    cases Primitive.ofCode? lead with
    | some code => exact .own (displaced_call builder start (.core (.primitive code)))
    | none =>
        cases ElementType.ofCode? lead with
        | some element => exact composite builder start element
        | none => exact .own (displaced_malformedAt start (.unknownElementType lead))

end Outline

/-! ## Steps -/

/-- A step whose types are decoded by an inner computation. -/
def stepOver (inner : Decode τ τ) : Step → Decode τ (Answer τ)
  | .decode .type => do
      let type ← inner
      Read.finish
      return .type type
  | .decode .field => do
      let _ ← Read.header .field
      let type ← inner
      Read.finish
      return .type type
  | .decode .method => do
      let signature ← Decode.method inner
      Read.finish
      return .method signature
  | .finish => do
      Read.finish
      return .finished

theorem step_eq (builder : Builder τ) (next : Step) :
    step builder next = stepOver (type builder) next := by
  rcases next with (_ | _ | _) | _
  · simp [step, entry, wholeType, stepOver]
  · simp [step, entry, wholeField, wholeType, stepOver]
  · simp [step, entry, wholeMethod, stepOver]
  · rfl

/-- The outline of what is read up to the end of the blob. -/
def Outline.whole {near far : Decode τ τ → Decode τ α} (body : Outline distance near far)
    (answer : α → Answer τ) :
    Outline distance
      (fun inner => near inner >>= fun value =>
        (liftM Read.finish : Decode τ Unit) >>= fun _ => pure (answer value))
      (fun inner => far inner >>= fun value =>
        (liftM Read.finish : Decode τ Unit) >>= fun _ => pure (answer value)) :=
  .bind body fun value => .own (displaced_finish.bind fun _ => displaced_pure (answer value))

def Outline.step : (next : Step) →
    Outline distance (fun inner : Decode τ τ => stepOver inner next) (stepOver · next)
  | .decode .type => .whole .inner .type
  | .decode .field => .bind (.own (displaced_header .field)) fun _ => .whole .inner .type
  | .decode .method => .whole .method .method
  | .finish => .own (displaced_finish.bind fun _ => displaced_pure Answer.finished)

/-- A type is decoded alike wherever it stands. -/
theorem displaced_typeWithin (builder : Builder τ) (levels : Nat) :
    Displaced distance (typeWithin builder levels) (typeWithin builder levels) := by
  induction levels with
  | zero => exact displaced_malformed .nestingTooDeep
  | succ levels ih => exact (Outline.production builder).displaced ih

/-- A step is taken alike wherever it starts. -/
theorem displaced_step (builder : Builder τ) (next : Step) :
    Displaced distance (step builder next) (step builder next) := by
  rw [step_eq]
  exact (Outline.step next).displaced (displaced_typeWithin builder maxNesting)

/-- A step only moves forward. -/
theorem passes_step (builder : Builder τ) (next : Step) (cursor : Cursor) :
    ∃ bytes, cursor.Passes bytes ((step builder next).run cursor).cursor := by
  have hstays : Displaced 0 (step builder next) (step builder next) :=
    displaced_step builder next
  exact hstays.forward cursor

/-! ## Steps one after another -/

variable {builder : Builder τ}

/-- The cursor from which steps go on after some runs. -/
def reached (cursor : Cursor) (runs : List (Run τ α)) : Cursor :=
  runs.foldl (fun _ run => run.cursor) cursor

/-- Every run of a list of steps is that of one step, from where the runs before it
stopped. -/
theorem step_of_steps {script : List Step} {cursor : Cursor}
    {earlier later : List (Run τ (Answer τ))} {run : Run τ (Answer τ)}
    (hruns : steps builder cursor script = earlier ++ run :: later) :
    ∃ next, script[earlier.length]? = some next ∧
      run = (step builder next).run (reached cursor earlier) := by
  induction script generalizing cursor earlier with
  | nil => cases List.append_eq_nil_iff.mp hruns.symm |>.2
  | cons next script ih =>
      cases earlier with
      | nil =>
          obtain ⟨rfl, -⟩ := List.cons.inj hruns
          exact ⟨next, rfl, rfl⟩
      | cons first earlier =>
          obtain ⟨rfl, hrest⟩ := List.cons.inj hruns
          exact ih hrest

/-- Runs only move forward. -/
theorem passes_steps {script : List Step} {cursor : Cursor}
    {earlier later : List (Run τ (Answer τ))}
    (hruns : steps builder cursor script = earlier ++ later) :
    ∃ bytes, cursor.Passes bytes (reached cursor earlier) := by
  induction earlier generalizing cursor script with
  | nil => exact ⟨[], .refl cursor⟩
  | cons first earlier ih =>
      cases script with
      | nil => cases hruns
      | cons next script =>
          obtain ⟨rfl, hrest⟩ := List.cons.inj hruns
          obtain ⟨head, hhead⟩ := passes_step builder next cursor
          obtain ⟨tail, htail⟩ := ih hrest
          exact ⟨head ++ tail, hhead.trans htail⟩

end Decode

end TypeProjection.Signature

import TypeProjection.Descriptor.Decoding
import TypeProjection.Proofs.Signature.Displacement

/-!
# Ways into the grammar

A type may stand alone or behind the header of a field, and the signature of a method may
stand alone or inside a function pointer.  Either way the same bytes come to the same
thing, with the offsets of the place where they stand.  Inside a function pointer there is
one level less to go down, which shows only where the levels run out.
-/

namespace TypeProjection.Signature

variable {τ α β : Type}

/-- The run failed because no level was left. -/
def Run.TooDeep (run : Run τ α) : Prop :=
  ∃ offset, run.result = .error (.malformed offset .nestingTooDeep)

namespace Decode

variable {distance : Nat}

/-! ## One level less -/

/-- The second computation does a distance ahead what the first one does, unless it runs
out of levels there. -/
def Limited (distance : Nat) (near far : Decode τ α) : Prop :=
  ∀ cursor : Cursor, (far.run (cursor.ahead distance)).TooDeep ∨
    far.run (cursor.ahead distance) = (near.run cursor).ahead distance

theorem tooDeep_bind {first : Decode τ α} {next : α → Decode τ β} {cursor : Cursor}
    (hdeep : (first.run cursor).TooDeep) : ((first >>= next).run cursor).TooDeep := by
  obtain ⟨offset, herror⟩ := hdeep
  refine ⟨offset, ?_⟩
  rw [run_bind]
  generalize first.run cursor = run at herror
  cases run
  cases herror
  rfl

theorem Limited.bind {near far : Decode τ α} {next farNext : α → Decode τ β}
    (hfirst : Limited distance near far)
    (hnext : ∀ value, Limited distance (next value) (farNext value)) :
    Limited distance (near >>= next) (far >>= farNext) := by
  intro cursor
  rcases hfirst cursor with hdeep | hsame
  · exact .inl (tooDeep_bind hdeep)
  rw [run_bind, run_bind]
  rw [hsame]
  rcases near.run cursor with ⟨error | value, middle, calls⟩
  · exact .inr rfl
  · rcases hnext value middle with ⟨offset, hdeep⟩ | hrest
    · exact .inl ⟨offset, hdeep⟩
    · right
      simp only [Run.ahead_ok, hrest]
      simp only [Run.ahead, List.map_append]

/-- What is put together from limited parts is limited. -/
theorem Outline.limited {near far : Decode τ τ → Decode τ α}
    (outline : Outline distance near far) {inner farInner : Decode τ τ}
    (hinner : Limited distance inner farInner) :
    Limited distance (near inner) (far farInner) := by
  induction outline with
  | own hsame => exact fun cursor => .inr (hsame.run cursor)
  | inner => exact hinner
  | offset next ih => exact fun cursor => ih cursor.offset cursor
  | bind first next ihFirst ihNext => exact ihFirst.bind ihNext

/-- A type comes to the same with one level less, or runs out of levels. -/
theorem limited_typeWithin (builder : Builder τ) (levels : Nat) :
    Limited distance (typeWithin builder (levels + 1)) (typeWithin builder levels) := by
  induction levels with
  | zero => exact fun cursor => .inl ⟨_, rfl⟩
  | succ levels ih => exact (Outline.production builder).limited ih

/-! ## Fields -/

theorem displaced_wholeType (builder : Builder τ) :
    Displaced distance (wholeType builder) (wholeType builder) := by
  apply (displaced_typeWithin builder maxNesting).bind
  intro type
  apply displaced_finish.bind
  intro _
  exact displaced_pure type

theorem kind?_of_field {byte : UInt8} (hfield : byte &&& 0x0F = 0x06) :
    (Header.mk byte).kind? = some .field := by
  rw [Header.kind?, Header.low, hfield]
  rfl

theorem run_header {kind : HeaderKind} {byte : UInt8}
    (hkind : (Header.mk byte).kind? = some kind) (offset : Nat) (rest : List UInt8) :
    (Read.header kind).run ⟨offset, byte :: rest⟩ = (.ok ⟨byte⟩, ⟨offset + 1, rest⟩) := by
  rw [Read.header, Read.run_bind_ok (Read.run_offset _)]
  rw [Read.run_bind_ok (Read.run_byte_cons offset byte rest), if_pos hkind]
  rfl

/-- Behind its header, a field is decoded like a type. -/
theorem run_wholeField (builder : Builder τ) {byte : UInt8} (hfield : byte &&& 0x0F = 0x06)
    (blob : List UInt8) :
    (wholeField builder).run (.start (byte :: blob)) =
      ((wholeType builder).run (.start blob)).ahead 1 := by
  have hheader : (liftM (Read.header .field) : Decode τ Header).run (.start (byte :: blob)) =
      ⟨.ok ⟨byte⟩, (Cursor.start blob).ahead 1, []⟩ := by
    have hread := run_header (kind?_of_field hfield) 0 blob
    exact congrArg (fun read => Run.mk read.1 read.2 []) hread
  rw [wholeField, run_bind, hheader]
  rw [← (displaced_wholeType builder).run]
  rfl

/-! ## Function pointers -/

/-- A function pointer is the signature of a method behind a byte of its own, and takes one
of the levels. -/
theorem run_functionPointer (builder : Builder τ) (blob : List UInt8) :
    (wholeType builder).run (.start (0x1B :: blob)) =
      (method (typeWithin builder (maxNesting - 1)) >>= fun signature =>
        call builder 0 (.optional (.functionPointer signature)) >>= fun pointer =>
          (liftM Read.finish : Decode τ Unit) >>= fun _ => pure pointer).run
            ((Cursor.start blob).ahead 1) := by
  rw [← bind_assoc]
  -- The first byte is read by computation.
  rfl

/-- Inside a function pointer that is accepted, the signature of a method comes to the same
as alone, unless the levels run out. -/
theorem run_acceptedPointer {builder : Builder τ} {pointer : MethodSignature τ → τ}
    (haccepts : ∀ signature,
      builder.optional (.functionPointer signature) = .ok (pointer signature))
    {blob : List UInt8}
    (hlevels : ¬ ((wholeType builder).run (.start (0x1B :: blob))).TooDeep) :
    ((wholeType builder).run (.start (0x1B :: blob))).result =
        (((wholeMethod builder).run (.start blob)).result.map pointer).mapError (.ahead 1) ∧
      ((wholeType builder).run (.start (0x1B :: blob))).cursor =
        ((wholeMethod builder).run (.start blob)).cursor.ahead 1 := by
  rw [run_functionPointer] at hlevels ⊢
  have hmethod : Limited 1 (method (type builder))
      (method (typeWithin builder (maxNesting - 1))) :=
    Outline.method.limited (limited_typeWithin builder (maxNesting - 1))
  rcases hmethod (.start blob) with hdeep | hsame
  · exact absurd (tooDeep_bind hdeep) hlevels
  rw [run_bind, hsame]
  rw [wholeMethod, run_bind]
  rcases (method (type builder)).run (.start blob) with ⟨error | signature, middle, calls⟩
  · exact ⟨rfl, rfl⟩
  · have hbuild : builder.build (.optional (.functionPointer signature)) =
        .ok (pointer signature) := haccepts signature
    simp only [Run.ahead_ok, run_bind, run_call_ok hbuild]
    -- The bytes left over are counted behind the pointer as they are behind the method.
    rcases middle with ⟨offset, _ | ⟨next, rest⟩⟩
    · exact ⟨rfl, rfl⟩
    · exact ⟨rfl, rfl⟩

end Decode

end TypeProjection.Signature

namespace TypeProjection

open TypeProjection.Signature TypeProjection.Signature.Decode

/-! ## Descriptors -/

/-- The second result is the first one with its error told as that of a projection: of the
same category, at the same place, for the same reason or construct and by the same message. -/
structure Retells {Value : Type} (decoded : Except SignatureError Value)
    (told : Except ProjectionError Value) : Prop where
  ok : ∀ value, told = .ok value ↔ decoded = .ok value
  malformed : ∀ offset reason,
    told = .error (.malformed offset reason) ↔ decoded = .error (.malformed offset reason)
  unsupported : ∀ offset construct,
    told = .error (.unsupported offset construct) ↔
      decoded = .error (.unsupported offset construct)
  /-- No other failures are told. -/
  message : ∀ failure, told = .error failure →
    ∃ error, decoded = .error error ∧ failure.message = error.message

/-- Both kinds of errors have the same messages. -/
theorem ProjectionError.message_ofSignatureError (error : SignatureError) :
    (ProjectionError.ofSignatureError error).message = error.message := by
  -- The texts are written out, since the equations of these functions are slow to unfold.
  cases error with
  | malformed offset reason =>
      exact Eq.refl ("malformed signature at byte " ++ toString offset ++ ": " ++ reason.message)
  | unsupported offset construct =>
      have htext : "` at byte " = "`" ++ " at byte " := by decide
      change "unsupported signature shape `" ++ construct.name ++ "` at byte " ++
          toString offset =
        "unsupported signature shape `" ++ construct.name ++ "`" ++ " at byte " ++
          toString offset
      rw [htext, ← String.append_assoc]

theorem retells_mapError {Value : Type} (decoded : Except SignatureError Value) :
    Retells decoded (decoded.mapError .ofSignatureError) where
  ok value := mapError_eq_ok_iff
  malformed offset reason := by
    simp only [mapError_eq_error_iff, ProjectionError.ofSignatureError_eq_malformed_iff,
      exists_eq_right]
  unsupported offset construct := by
    simp only [mapError_eq_error_iff, ProjectionError.ofSignatureError_eq_unsupported_iff,
      exists_eq_right]
  message failure hfailure := by
    rw [mapError_eq_error_iff] at hfailure
    obtain ⟨error, hdecoded, rfl⟩ := hfailure
    exact ⟨error, hdecoded, ProjectionError.message_ofSignatureError error⟩

/-- The ways into the grammar agree.  Behind its header, a field is decoded like a type, a
byte further on.  If function pointers are accepted and the levels do not run out, a
function pointer comes to what is made of the signature in it, or fails like it, a byte
further on.  Descriptors are decoded as by any decoder with their builder, and failures are
told as they are. -/
theorem entryPoints_agree :
    (∀ {τ : Type} (builder : Builder τ) (header : UInt8) (blob : List UInt8),
      header &&& 0x0F = 0x06 →
        (wholeField builder).run (.start (header :: blob)) =
          ((wholeType builder).run (.start blob)).ahead 1) ∧
    (∀ {τ : Type} (builder : Builder τ) (pointer : MethodSignature τ → τ) (blob : List UInt8),
      (∀ signature, builder.optional (.functionPointer signature) = .ok (pointer signature)) →
      (∀ offset, ((wholeType builder).run (.start (0x1B :: blob))).result ≠
        .error (.malformed offset .nestingTooDeep)) →
        ((wholeType builder).run (.start (0x1B :: blob))).result =
            (((wholeMethod builder).run (.start blob)).result.map pointer).mapError (.ahead 1) ∧
          ((wholeType builder).run (.start (0x1B :: blob))).cursor =
            ((wholeMethod builder).run (.start blob)).cursor.ahead 1) ∧
    ∀ blob : List UInt8,
      Retells ((wholeType Descriptor.builder).run (.start blob)).result
          (Descriptor.decodeType blob) ∧
        Retells ((wholeField Descriptor.builder).run (.start blob)).result
          (Descriptor.decodeField blob) ∧
        Retells ((wholeMethod Descriptor.builder).run (.start blob)).result
          (Descriptor.decodeMethod blob) := by
  refine ⟨?_, ?_, ?_⟩
  · intro τ builder header blob hfield
    exact run_wholeField builder hfield blob
  · intro τ builder pointer blob haccepts hlevels
    exact run_acceptedPointer haccepts (not_exists.mpr hlevels)
  · intro blob
    exact ⟨retells_mapError _, retells_mapError _, retells_mapError _⟩

/-- A method with a mark before variable arguments, alone and in a function pointer, over a
builder that counts parameters; and a field with a reserved bit in its header. -/
theorem entryPoints_agree_sentinel :
    let builder : Builder Nat :=
      { core := fun _ => 0
        optional := fun
          | .functionPointer signature => .ok signature.parameters.length
          | production => .error production.construct }
    ((wholeType builder).run (.start [0x1B, 0x05, 0x02, 0x01, 0x08, 0x41, 0x08])).result =
        .error (.unsupported 5 .sentinel) ∧
      ((wholeField builder).run (.start [0x86, 0x08])).result = .ok 0 := by
  intro builder
  have htype : ((wholeType builder).run
      (.start [0x1B, 0x05, 0x02, 0x01, 0x08, 0x41, 0x08])).result =
        .error (.unsupported 5 .sentinel) := rfl
  have hmethod : ((wholeMethod builder).run (.start [0x05, 0x02, 0x01, 0x08, 0x41, 0x08])).result =
      .error (.unsupported 4 .sentinel) := rfl
  have hlevels (offset : Nat) : ((wholeType builder).run
      (.start [0x1B, 0x05, 0x02, 0x01, 0x08, 0x41, 0x08])).result ≠
        .error (.malformed offset .nestingTooDeep) := by
    rw [htype]
    exact nofun
  constructor
  · have hpointer := (entryPoints_agree.2.1 builder (fun signature => signature.parameters.length)
      [0x05, 0x02, 0x01, 0x08, 0x41, 0x08] (fun _ => rfl) hlevels).1
    rw [hpointer, hmethod]
    rfl
  · have hfield := entryPoints_agree.1 builder 0x86 [0x08] (by decide)
    exact congrArg Run.result hfield

end TypeProjection

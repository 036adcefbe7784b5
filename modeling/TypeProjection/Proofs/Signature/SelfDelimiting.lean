import TypeProjection.Proofs.Signature.Passage
import TypeProjection.Signature.Spelling
import TypeProjection.Signature.Step

/-!
# Signatures delimit themselves

The bytes of a signature tell where the signature ends.  A computation that yields a
value never looks at the bytes behind those that it passes over, and on any fewer of
them it runs out of bytes.  This is kept by putting computations one after another, so
it holds of the whole decoder, whatever the builder.
-/

namespace TypeProjection.Signature

namespace Decode

variable {τ α β : Type}

/-! ## Computations that delimit themselves -/

/-- From this offset the computation yields the value on exactly these bytes, whatever
follows them, and runs out of bytes on any fewer of them. -/
structure Delimits (computation : Decode τ α) (offset : Nat) (value : α)
    (word : List UInt8) : Prop where
  yields : ∀ rest,
    computation.Yields ⟨offset, word ++ rest⟩ value ⟨offset + word.length, rest⟩
  runsOut : ∀ cut lost, word = cut ++ lost → lost ≠ [] →
    computation.Fails ⟨offset, cut⟩ (.malformed (offset + cut.length) .unexpectedEnd)
      ⟨offset + cut.length, []⟩

/-- What the computation passes over, it delimits. -/
def SelfDelimiting (computation : Decode τ α) : Prop :=
  ∀ cursor value after, computation.Yields cursor value after →
    ∃ word, cursor.Passes word after ∧ computation.Delimits cursor.offset value word

/-- A computation that yields without reading does so on any bytes. -/
theorem selfDelimiting_of_still {computation : Decode τ α}
    (hstill : ∀ cursor value after, computation.Yields cursor value after →
      after = cursor ∧ ∀ rest, computation.Yields ⟨cursor.offset, rest⟩ value
        ⟨cursor.offset, rest⟩) : computation.SelfDelimiting := by
  intro cursor value after hyields
  obtain ⟨rfl, hany⟩ := hstill cursor value after hyields
  refine ⟨[], .refl after, hany, ?_⟩
  intro cut lost hsplit hlost
  exact absurd (List.append_eq_nil_iff.mp hsplit.symm).2 hlost

theorem selfDelimiting_pure (value : α) : (pure value : Decode τ α).SelfDelimiting := by
  apply selfDelimiting_of_still
  intro cursor result after hyields
  obtain ⟨rfl, rfl⟩ := yields_pure_iff.mp hyields
  exact ⟨rfl, fun rest => yields_pure_iff.mpr ⟨rfl, rfl⟩⟩

theorem selfDelimiting_call (builder : Builder τ) (start : Nat) (production : Production τ) :
    (call builder start production).SelfDelimiting := by
  apply selfDelimiting_of_still
  intro cursor value after hyields
  obtain ⟨hbuild, rfl⟩ := yields_call_iff.mp hyields
  exact ⟨rfl, fun rest => yields_call_iff.mpr ⟨hbuild, rfl⟩⟩

theorem selfDelimiting_offset : (liftM Read.offset : Decode τ Nat).SelfDelimiting := by
  apply selfDelimiting_of_still
  intro cursor value after hyields
  obtain ⟨hvalue, hafter⟩ := hyields
  exact ⟨hafter.symm, fun rest => ⟨hvalue, rfl⟩⟩

/-- A computation that never yields has nothing to delimit. -/
theorem selfDelimiting_of_not_yields {computation : Decode τ α}
    (hnever : ∀ cursor value after, ¬ computation.Yields cursor value after) :
    computation.SelfDelimiting :=
  fun cursor value after hyields => absurd hyields (hnever cursor value after)

theorem selfDelimiting_malformedAt (offset : Nat) (reason : Malformation) :
    (liftM (Read.malformedAt offset reason : Read α) : Decode τ α).SelfDelimiting :=
  selfDelimiting_of_not_yields (by simp)

theorem selfDelimiting_unsupported (offset : Nat) (construct : Construct) :
    (unsupported offset construct : Decode τ α).SelfDelimiting :=
  selfDelimiting_of_not_yields (by simp)

theorem selfDelimiting_byte : (liftM Read.byte : Decode τ UInt8).SelfDelimiting := by
  intro cursor value after hyields
  refine ⟨[value], yields_byte_iff.mp hyields, ?_, ?_⟩
  · intro rest
    exact yields_byte_iff.mpr ⟨rfl, rfl⟩
  · intro cut lost hsplit hlost
    have hcut : cut = [] := by
      rcases List.append_eq_singleton_iff.mp hsplit.symm with ⟨hcut, -⟩ | ⟨-, hnone⟩
      · exact hcut
      · exact absurd hnone hlost
    rw [hcut]
    exact fails_byte_iff.mpr ⟨rfl, rfl, rfl⟩

/-- Fewer bytes than two words in a row either cut the first word or leave it whole
and cut the second. -/
theorem cut_append_cases {head tail cut lost : List UInt8}
    (hsplit : head ++ tail = cut ++ lost) :
    (∃ rest, rest ≠ [] ∧ head = cut ++ rest) ∨
      ∃ rest, cut = head ++ rest ∧ tail = rest ++ lost := by
  rcases List.append_eq_append_iff.mp hsplit with ⟨rest, hcut, htail⟩ | ⟨rest, hhead, htail⟩
  · exact .inr ⟨rest, hcut, htail⟩
  · cases rest with
    | nil => exact .inr ⟨[], by simpa using hhead.symm, htail.symm⟩
    | cons first rest => exact .inl ⟨first :: rest, List.cons_ne_nil _ _, hhead⟩

theorem Delimits.bind {first : Decode τ α} {next : α → Decode τ β} {offset : Nat}
    {value : α} {result : β} {head tail : List UInt8}
    (hfirst : first.Delimits offset value head)
    (hnext : (next value).Delimits (offset + head.length) result tail) :
    (first >>= next).Delimits offset result (head ++ tail) where
  yields rest := by
    rw [List.append_assoc, List.length_append, ← Nat.add_assoc]
    exact (hfirst.yields (tail ++ rest)).bind (hnext.yields rest)
  runsOut cut lost hsplit hlost := by
    rcases cut_append_cases hsplit with ⟨rest, hrest, hhead⟩ | ⟨rest, rfl, htail⟩
    · exact fails_bind_iff.mpr (.inl (hfirst.runsOut cut rest hhead hrest))
    · rw [List.length_append, ← Nat.add_assoc]
      exact fails_bind_iff.mpr
        (.inr ⟨value, _, hfirst.yields rest, hnext.runsOut rest lost htail hlost⟩)

theorem SelfDelimiting.bind {first : Decode τ α} {next : α → Decode τ β}
    (hfirst : first.SelfDelimiting) (hnext : ∀ value, (next value).SelfDelimiting) :
    (first >>= next).SelfDelimiting := by
  intro cursor result after hyields
  obtain ⟨value, middle, hvalue, hresult⟩ := yields_bind_iff.mp hyields
  obtain ⟨head, hpassesHead, hhead⟩ := hfirst cursor value middle hvalue
  obtain ⟨tail, hpassesTail, htail⟩ := hnext value middle result after hresult
  rw [hpassesHead.offset] at htail
  exact ⟨head ++ tail, hpassesHead.trans hpassesTail, hhead.bind htail⟩

theorem SelfDelimiting.times {item : Decode τ α} (hitem : item.SelfDelimiting)
    (count : Nat) : (Signature.times count item).SelfDelimiting := by
  induction count with
  | zero => exact selfDelimiting_pure []
  | succ count ih =>
      apply hitem.bind
      intro head
      apply ih.bind
      intro tail
      exact selfDelimiting_pure (head :: tail)

/-! ## Reads -/

theorem selfDelimiting_compressed :
    (liftM Read.compressed : Decode τ (Width × Nat)).SelfDelimiting := by
  simp only [Read.compressed, liftM_bind]
  apply selfDelimiting_offset.bind
  intro start
  apply selfDelimiting_byte.bind
  intro first
  cases Width.ofLead? first with
  | none => exact selfDelimiting_malformedAt start .invalidCompressedInteger
  | some width =>
      simp only [liftM_bind, liftM_times, liftM_pure]
      apply (selfDelimiting_byte.times width.extraBytes).bind
      intro extra
      exact selfDelimiting_pure (width, width.payload first extra)

theorem selfDelimiting_unsigned : (liftM Read.unsigned : Decode τ UInt32).SelfDelimiting := by
  simp only [Read.unsigned, liftM_bind, liftM_pure]
  apply selfDelimiting_compressed.bind
  intro read
  exact selfDelimiting_pure (UInt32.ofNat read.2)

theorem selfDelimiting_signed : (liftM Read.signed : Decode τ Int32).SelfDelimiting := by
  simp only [Read.signed, liftM_bind]
  apply selfDelimiting_offset.bind
  intro start
  apply selfDelimiting_compressed.bind
  intro read
  cases narrow? (read.1.signedPayload read.2) with
  | some value =>
      rw [liftM_pure]
      exact selfDelimiting_pure value
  | none => exact selfDelimiting_malformedAt start .invalidCompressedInteger

theorem selfDelimiting_countedUpTo {item : Read α}
    (hitem : (liftM item : Decode τ α).SelfDelimiting) (limit : UInt32) (start : Nat) :
    (liftM (Read.countedUpTo limit start item) : Decode τ (List α)).SelfDelimiting := by
  simp only [Read.countedUpTo, liftM_bind]
  apply selfDelimiting_unsigned.bind
  intro count
  by_cases hlimit : limit < count
  · rw [if_pos hlimit]
    exact selfDelimiting_malformedAt start .invalidDimensions
  · rw [if_neg hlimit, liftM_times]
    exact hitem.times count.toNat

theorem selfDelimiting_dimensions :
    (liftM Read.dimensions : Decode τ Dimensions).SelfDelimiting := by
  simp only [Read.dimensions, liftM_bind]
  apply selfDelimiting_offset.bind
  intro start
  apply selfDelimiting_unsigned.bind
  intro rank
  by_cases hzero : rank = 0
  · rw [if_pos hzero]
    exact selfDelimiting_malformedAt start .invalidDimensions
  · rw [if_neg hzero]
    simp only [liftM_bind, liftM_pure]
    apply (selfDelimiting_countedUpTo selfDelimiting_unsigned rank start).bind
    intro sizes
    apply (selfDelimiting_countedUpTo selfDelimiting_signed rank start).bind
    intro lowerBounds
    exact selfDelimiting_pure (Dimensions.mk rank sizes lowerBounds)

theorem selfDelimiting_header (kind : HeaderKind) :
    (liftM (Read.header kind) : Decode τ Header).SelfDelimiting := by
  simp only [Read.header, liftM_bind]
  apply selfDelimiting_offset.bind
  intro start
  apply selfDelimiting_byte.bind
  intro byte
  by_cases hkind : (Header.mk byte).kind? = some kind
  · rw [if_pos hkind, liftM_pure]
    exact selfDelimiting_pure (Header.mk byte)
  · rw [if_neg hkind]
    exact selfDelimiting_malformedAt start (.unexpectedHeader byte)

theorem selfDelimiting_namedForm : (namedForm : Decode τ NamedForm).SelfDelimiting := by
  simp only [namedForm, liftM_bind]
  apply selfDelimiting_offset.bind
  intro start
  apply selfDelimiting_byte.bind
  intro byte
  split
  · exact selfDelimiting_pure NamedForm.classType
  · exact selfDelimiting_pure NamedForm.valueType
  · exact selfDelimiting_malformedAt start (.unknownElementType byte)

/-! ## Productions -/

section

variable (builder : Builder τ)

theorem selfDelimiting_named (form : NamedForm) (start : Nat) :
    (named builder form start).SelfDelimiting := by
  apply selfDelimiting_offset.bind
  intro codedStart
  apply selfDelimiting_unsigned.bind
  intro coded
  cases named? coded form with
  | none => exact selfDelimiting_malformedAt codedStart (.invalidCodedIndex coded)
  | some production => exact selfDelimiting_call builder start production

variable {builder} {inner : Decode τ τ}

/-- The computation yields nothing without a byte to read. -/
def NeedsByte (computation : Decode τ α) : Prop :=
  ∀ offset value after, ¬ computation.Yields ⟨offset, []⟩ value after

/-- The byte that a parameter peeks at is the first of those that its type passes over. -/
theorem selfDelimiting_parameter (hinner : inner.SelfDelimiting) (hneeds : inner.NeedsByte) :
    (parameter inner).SelfDelimiting := by
  intro cursor value after hparameter
  obtain ⟨next, middle, hpeek, hyields⟩ := yields_bind_iff.mp hparameter
  obtain ⟨rfl, rest, hrest⟩ := yields_peek_iff.mp hpeek
  by_cases hsentinel : next = ElementType.sentinel.code
  · rw [if_pos hsentinel, yields_offset_iff] at hyields
    exact absurd hyields not_yields_unsupported
  rw [if_neg hsentinel] at hyields
  obtain ⟨word, hpasses, hword⟩ := hinner middle value after hyields
  obtain ⟨tail, rfl⟩ : ∃ tail, word = next :: tail := by
    cases word with
    | nil => exact absurd (hword.yields []) (hneeds _ _ _)
    | cons head tail =>
        rw [hpasses.rest] at hrest
        exact ⟨tail, congrArg (· :: tail) (List.cons.inj hrest).1⟩
  have hpeeks (offset : Nat) (bytes : List UInt8) :
      (liftM Read.peek : Decode τ UInt8).Yields ⟨offset, next :: bytes⟩ next
        ⟨offset, next :: bytes⟩ :=
    yields_peek_iff.mpr ⟨rfl, bytes, rfl⟩
  refine ⟨next :: tail, hpasses, ?_, ?_⟩
  · intro rest
    refine (hpeeks middle.offset (tail ++ rest)).bind ?_
    rw [if_neg hsentinel]
    exact hword.yields rest
  · intro cut lost hsplit hlost
    cases cut with
    | nil => exact fails_bind_iff.mpr (.inl (fails_peek_iff.mpr ⟨rfl, rfl, rfl⟩))
    | cons head bytes =>
        obtain ⟨rfl, htail⟩ := List.cons.inj hsplit
        refine fails_bind_iff.mpr (.inr ⟨next, _, hpeeks middle.offset bytes, ?_⟩)
        rw [if_neg hsentinel]
        exact hword.runsOut (next :: bytes) lost hsplit hlost

/-- What follows the number of generic parameters of a method. -/
theorem selfDelimiting_methodTypes (hinner : inner.SelfDelimiting) (hneeds : inner.NeedsByte)
    (header : Header) (genericArity : UInt32) :
    (methodTypes inner header genericArity).SelfDelimiting := by
  apply selfDelimiting_unsigned.bind
  intro count
  apply hinner.bind
  intro returnType
  apply ((selfDelimiting_parameter hinner hneeds).times count.toNat).bind
  intro parameters
  exact selfDelimiting_pure (MethodSignature.mk header genericArity returnType parameters)

theorem selfDelimiting_method (hinner : inner.SelfDelimiting) (hneeds : inner.NeedsByte) :
    (method inner).SelfDelimiting := by
  have htypes := selfDelimiting_methodTypes hinner hneeds
  rw [method_eq]
  apply (selfDelimiting_header .method).bind
  intro header
  by_cases hgeneric : header.isGeneric
  · rw [if_pos hgeneric]
    apply selfDelimiting_unsigned.bind
    exact htypes header
  · rw [if_neg hgeneric]
    exact htypes header 0

variable (builder)

/-- A production over a single part ends where its part does. -/
theorem SelfDelimiting.called {part : Decode τ α} (hpart : part.SelfDelimiting) (start : Nat)
    (wrap : α → Production τ) :
    (part >>= fun value => call builder start (wrap value)).SelfDelimiting := by
  apply hpart.bind
  intro value
  exact selfDelimiting_call builder start (wrap value)

theorem selfDelimiting_modified (hinner : inner.SelfDelimiting) (start : Nat)
    (isRequired : Bool) : (modified builder inner start isRequired).SelfDelimiting := by
  apply selfDelimiting_offset.bind
  intro modifierStart
  apply (selfDelimiting_named builder .classType modifierStart).bind
  intro modifier
  exact hinner.called builder start _

theorem selfDelimiting_genericInstance (hinner : inner.SelfDelimiting) (start : Nat) :
    (composite builder inner start .genericInstance).SelfDelimiting := by
  apply selfDelimiting_offset.bind
  intro genericStart
  apply selfDelimiting_namedForm.bind
  intro form
  apply (selfDelimiting_named builder form genericStart).bind
  intro generic
  apply selfDelimiting_unsigned.bind
  intro count
  exact (hinner.times count.toNat).called builder start _

theorem selfDelimiting_composite (hinner : inner.SelfDelimiting) (hneeds : inner.NeedsByte)
    (start : Nat) (element : ElementType) :
    (composite builder inner start element).SelfDelimiting := by
  cases element with
  | pointer => exact hinner.called builder start _
  | vector => exact hinner.called builder start _
  | byReference => exact hinner.called builder start _
  | pinned => exact hinner.called builder start _
  | array =>
      apply hinner.bind
      intro element
      exact selfDelimiting_dimensions.called builder start _
  | classType => exact selfDelimiting_named builder .classType start
  | valueType => exact selfDelimiting_named builder .valueType start
  | typeVariable => exact selfDelimiting_unsigned.called builder start _
  | methodVariable => exact selfDelimiting_unsigned.called builder start _
  | genericInstance => exact selfDelimiting_genericInstance builder hinner start
  | functionPointer =>
      exact (selfDelimiting_method hinner hneeds).called builder start _
  | requiredModifier => exact selfDelimiting_modified builder hinner start true
  | optionalModifier => exact selfDelimiting_modified builder hinner start false
  | typedReference => exact selfDelimiting_unsupported start .typedReference
  | sentinel => exact selfDelimiting_malformedAt start _

theorem selfDelimiting_production (hinner : inner.SelfDelimiting) (hneeds : inner.NeedsByte) :
    (production builder inner).SelfDelimiting := by
  apply selfDelimiting_offset.bind
  intro start
  apply selfDelimiting_byte.bind
  intro lead
  split
  next code _ => exact selfDelimiting_call builder start (.core (.primitive code))
  next =>
    split
    next element _ => exact selfDelimiting_composite builder hinner hneeds start element
    next => exact selfDelimiting_malformedAt start (.unknownElementType lead)

theorem needsByte_typeWithin (levels : Nat) : (typeWithin builder levels).NeedsByte := by
  intro offset value after hyields
  cases levels with
  | zero => simp [typeWithin] at hyields
  | succ levels =>
      rw [typeWithin, production, yields_offset_iff] at hyields
      obtain ⟨lead, middle, hlead, -⟩ := yields_bind_iff.mp hyields
      have hrest := (yields_byte_iff.mp hlead).rest
      cases hrest

theorem selfDelimiting_typeWithin (levels : Nat) :
    (typeWithin builder levels).SelfDelimiting := by
  induction levels with
  | zero =>
      apply selfDelimiting_of_not_yields
      intro cursor value after hyields
      simp [typeWithin] at hyields
  | succ levels ih =>
      exact selfDelimiting_production builder ih (needsByte_typeWithin builder levels)

end

/-! ## Whole blobs -/

/-- The signature of an entry point, without the check for bytes behind it. -/
def body (builder : Builder τ) : Entry → Decode τ (Answer τ)
  | .type => return .type (← type builder)
  | .field => do
      let _ ← Read.header .field
      return .type (← type builder)
  | .method => return .method (← method (type builder))

theorem entry_eq (builder : Builder τ) (signature : Entry) :
    entry builder signature = do
      let answer ← body builder signature
      Read.finish
      return answer := by
  cases signature with
  | type => simp [entry, wholeType, body]
  | field => simp [entry, wholeField, wholeType, body]
  | method => simp [entry, wholeMethod, body]

theorem selfDelimiting_body (builder : Builder τ) (signature : Entry) :
    (body builder signature).SelfDelimiting := by
  have htype : (type builder).SelfDelimiting := selfDelimiting_typeWithin builder maxNesting
  have hanswer : (do return .type (← type builder) : Decode τ (Answer τ)).SelfDelimiting := by
    apply htype.bind
    intro value
    exact selfDelimiting_pure (Answer.type value)
  cases signature with
  | type => exact hanswer
  | field =>
      apply (selfDelimiting_header .field).bind
      intro header
      exact hanswer
  | method =>
      apply (selfDelimiting_method htype (needsByte_typeWithin builder maxNesting)).bind
      intro value
      exact selfDelimiting_pure (Answer.method value)

/-- A blob that an entry point accepts is delimited by its signature. -/
theorem delimits_of_accepts {builder : Builder τ} {signature : Entry} {blob : List UInt8}
    {answer : Answer τ}
    (haccepts : ((entry builder signature).run (.start blob)).result = .ok answer) :
    (body builder signature).Delimits 0 answer blob := by
  rw [entry_eq] at haccepts
  obtain ⟨value, middle, hvalue, hyields⟩ := yields_bind_iff.mp ⟨haccepts, rfl⟩
  obtain ⟨_, after, hfinish, hyields⟩ := yields_bind_iff.mp hyields
  obtain ⟨rfl, -⟩ := yields_pure_iff.mp hyields
  obtain ⟨word, hpasses, hword⟩ :=
    selfDelimiting_body builder signature (.start blob) _ middle hvalue
  have hblob : blob = word := by
    have hrest := hpasses.rest
    rw [(yields_finish_iff.mp hfinish).2, List.append_nil] at hrest
    exact hrest
  rw [hblob]
  exact hword

end Decode

open Decode

variable {τ : Type} {builder : Builder τ} {signature : Entry} {blob : List UInt8}
  {answer : Answer τ}

/-- A blob that a signature delimits is cut short nowhere without a complaint. -/
theorem entry_cut (hblob : (body builder signature).Delimits 0 answer blob)
    {cut lost : List UInt8} (hsplit : blob = cut ++ lost) (hlost : lost ≠ []) :
    ((entry builder signature).run (.start cut)).result =
      .error (.malformed cut.length .unexpectedEnd) := by
  have hfails := hblob.runsOut cut lost hsplit hlost
  rw [Nat.zero_add] at hfails
  rw [entry_eq]
  exact (fails_bind_iff.mpr (.inl hfails)).1

/-- The bytes behind a signature are counted, whatever they are. -/
theorem entry_extended (hblob : (body builder signature).Delimits 0 answer blob)
    {rest : List UInt8} (hrest : rest ≠ []) :
    ((entry builder signature).run (.start (blob ++ rest))).result =
      .error (.malformed blob.length (.trailingBytes rest.length)) := by
  have hyields := hblob.yields rest
  rw [Nat.zero_add] at hyields
  have hfinish : (liftM Read.finish : Decode τ Unit).Fails ⟨blob.length, rest⟩
      (.malformed blob.length (.trailingBytes rest.length)) ⟨blob.length, rest⟩ :=
    fails_finish_iff.mpr ⟨rfl, rfl, hrest⟩
  rw [entry_eq]
  exact (fails_bind_iff.mpr
    (.inr ⟨answer, _, hyields, fails_bind_iff.mpr (.inl hfinish)⟩)).1

/-- An accepted blob can neither be cut nor extended.  With any of its last bytes
missing, decoding runs out of bytes at the end of what is left; with any bytes behind
it, decoding stops at its end and counts them.  So no accepted blob is the beginning of
another. -/
theorem entry_delimits
    (haccepts : ((entry builder signature).run (.start blob)).result = .ok answer) :
    (∀ cut, cut <+: blob → cut ≠ blob →
      ((entry builder signature).run (.start cut)).result =
        .error (.malformed cut.length .unexpectedEnd)) ∧
    (∀ rest, rest ≠ [] →
      ((entry builder signature).run (.start (blob ++ rest))).result =
        .error (.malformed blob.length (.trailingBytes rest.length))) ∧
    (∀ other otherAnswer,
      ((entry builder signature).run (.start other)).result = .ok otherAnswer →
        blob <+: other → other = blob) := by
  have hblob := delimits_of_accepts haccepts
  refine ⟨?_, ?_, ?_⟩
  · intro cut hprefix hproper
    obtain ⟨lost, hsplit⟩ := hprefix
    apply entry_cut hblob hsplit.symm
    intro hnone
    rw [hnone, List.append_nil] at hsplit
    exact hproper hsplit
  · intro rest hrest
    exact entry_extended hblob hrest
  · intro other otherAnswer hother hprefix
    obtain ⟨rest, rfl⟩ := hprefix
    by_cases hrest : rest = []
    · rw [hrest, List.append_nil]
    · rw [entry_extended hblob hrest] at hother
      cases hother

/-- A generic method with one parameter, a pointer to a class: what is left of it before
the class, and the same method with two bytes behind it. -/
theorem entry_delimits_generic_method :
    ((entry Builder.plain .method).run (.start [0x10, 0x01, 0x01, 0x01, 0x0F])).result =
        .error (.malformed 5 .unexpectedEnd) ∧
      ((entry Builder.plain .method).run
        (.start [0x10, 0x01, 0x01, 0x01, 0x0F, 0x12, 0x05, 0x00, 0x00])).result =
          .error (.malformed 7 (.trailingBytes 2)) := by
  have haccepts : ((entry Builder.plain .method).run
      (.start [0x10, 0x01, 0x01, 0x01, 0x0F, 0x12, 0x05])).result =
        .ok (.method ⟨⟨0x10⟩, 1, "Void", ["ref1:Class*"]⟩) := by
    rfl
  obtain ⟨hcut, hextended, -⟩ := entry_delimits haccepts
  exact ⟨hcut _ ⟨[0x12, 0x05], rfl⟩ (by decide), hextended [0x00, 0x00] (by decide)⟩

end TypeProjection.Signature

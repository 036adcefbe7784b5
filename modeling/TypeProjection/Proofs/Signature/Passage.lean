import TypeProjection.Signature.Run

/-!
# Passages over a blob

Two places of one blob are joined by the bytes between them.  The outcome of a
decoding computation is stated in these terms: it yields a value and leaves a
later place behind, or it fails there.  A computation recognizes a language when
the bytes that it passes over are exactly the words of the language for the value
that it yields.
-/

namespace TypeProjection.Signature

/-- The bytes between a cursor and a later one. -/
structure Cursor.Passes (cursor : Cursor) (bytes : List UInt8) (after : Cursor) :
    Prop where
  rest : cursor.rest = bytes ++ after.rest
  offset : after.offset = cursor.offset + bytes.length

namespace Cursor

variable {cursor middle after : Cursor} {bytes head tail : List UInt8}

@[simp]
theorem passes_nil_iff : cursor.Passes [] after ↔ after = cursor := by
  constructor
  · rintro ⟨hrest, hoffset⟩
    cases cursor
    cases after
    simp_all
  · rintro rfl
    exact ⟨rfl, rfl⟩

theorem Passes.refl (cursor : Cursor) : cursor.Passes [] cursor :=
  passes_nil_iff.mpr rfl

theorem Passes.trans (hhead : cursor.Passes head middle)
    (htail : middle.Passes tail after) : cursor.Passes (head ++ tail) after := by
  constructor
  · rw [hhead.rest, htail.rest, List.append_assoc]
  · rw [htail.offset, hhead.offset, List.length_append, Nat.add_assoc]

/-- A passage over two words in a row has a place between them. -/
theorem passes_append_iff :
    cursor.Passes (head ++ tail) after ↔
      ∃ middle, cursor.Passes head middle ∧ middle.Passes tail after := by
  constructor
  · intro hpasses
    refine ⟨⟨cursor.offset + head.length, tail ++ after.rest⟩, ⟨?_, rfl⟩, ⟨rfl, ?_⟩⟩
    · rw [hpasses.rest, List.append_assoc]
    · rw [hpasses.offset, List.length_append, Nat.add_assoc]
  · rintro ⟨middle, hhead, htail⟩
    exact hhead.trans htail

theorem passes_cons_iff {byte : UInt8} :
    cursor.Passes (byte :: tail) after ↔
      ∃ middle, cursor.Passes [byte] middle ∧ middle.Passes tail after := by
  rw [← List.singleton_append, passes_append_iff]

theorem Passes.offset_le (hpasses : cursor.Passes bytes after) :
    cursor.offset ≤ after.offset := by
  rw [hpasses.offset]
  exact Nat.le_add_right _ _

end Cursor

namespace Decode

variable {τ α β : Type} {cursor middle after : Cursor}

/-- The computation succeeds with a value and leaves the second cursor behind. -/
def Yields (computation : Decode τ α) (cursor : Cursor) (value : α) (after : Cursor) :
    Prop :=
  (computation.run cursor).result = .ok value ∧ (computation.run cursor).cursor = after

/-- The computation fails with an error and leaves the second cursor behind. -/
def Fails (computation : Decode τ α) (cursor : Cursor) (error : SignatureError)
    (after : Cursor) : Prop :=
  (computation.run cursor).result = .error error ∧ (computation.run cursor).cursor = after

@[simp]
theorem yields_pure_iff {value result : α} :
    (pure value : Decode τ α).Yields cursor result after ↔
      result = value ∧ after = cursor := by
  simp [Yields, eq_comm]

@[simp]
theorem not_fails_pure {value : α} {error : SignatureError} :
    ¬ (pure value : Decode τ α).Fails cursor error after := by
  simp [Fails]

theorem yields_bind_iff {first : Decode τ α} {next : α → Decode τ β} {result : β} :
    (first >>= next).Yields cursor result after ↔
      ∃ value middle, first.Yields cursor value middle ∧
        (next value).Yields middle result after := by
  unfold Yields
  rw [run_bind]
  rcases first.run cursor with ⟨error | value, middle, calls⟩
  · simp
  · constructor
    · intro hnext
      exact ⟨value, middle, ⟨rfl, rfl⟩, hnext⟩
    · rintro ⟨_, _, ⟨⟨⟩, rfl⟩, hnext⟩
      exact hnext

theorem fails_bind_iff {first : Decode τ α} {next : α → Decode τ β}
    {error : SignatureError} :
    (first >>= next).Fails cursor error after ↔
      first.Fails cursor error after ∨
        ∃ value middle, first.Yields cursor value middle ∧
          (next value).Fails middle error after := by
  unfold Fails Yields
  rw [run_bind]
  rcases first.run cursor with ⟨failure | value, middle, calls⟩
  · simp
  · constructor
    · intro hnext
      exact .inr ⟨value, middle, ⟨rfl, rfl⟩, hnext⟩
    · rintro (⟨⟨⟩, -⟩ | ⟨_, _, ⟨⟨⟩, rfl⟩, hnext⟩)
      exact hnext

theorem Yields.bind {first : Decode τ α} {next : α → Decode τ β} {value : α} {result : β}
    (hfirst : first.Yields cursor value middle)
    (hnext : (next value).Yields middle result after) :
    (first >>= next).Yields cursor result after :=
  yields_bind_iff.mpr ⟨value, middle, hfirst, hnext⟩

@[simp]
theorem yields_lift_iff {read : Read α} {value : α} :
    (liftM read : Decode τ α).Yields cursor value after ↔
      read.run cursor = (.ok value, after) := by
  change (read.run cursor).1 = _ ∧ (read.run cursor).2 = _ ↔ _
  rw [Prod.ext_iff]

@[simp]
theorem fails_lift_iff {read : Read α} {error : SignatureError} :
    (liftM read : Decode τ α).Fails cursor error after ↔
      read.run cursor = (.error error, after) := by
  change (read.run cursor).1 = _ ∧ (read.run cursor).2 = _ ↔ _
  rw [Prod.ext_iff]

theorem run_call_ok {builder : Builder τ} {start : Nat} {production : Production τ}
    {value : τ} (hbuild : builder.build production = .ok value) :
    (call builder start production).run cursor =
      ⟨.ok value, cursor, [⟨start, production⟩]⟩ := by
  rw [call]
  rw [hbuild]
  rfl

theorem run_call_error {builder : Builder τ} {start : Nat} {production : Production τ}
    {construct : Construct} (hbuild : builder.build production = .error construct) :
    (call builder start production).run cursor =
      ⟨.error (.unsupported start construct), cursor, [⟨start, production⟩]⟩ := by
  rw [call]
  rw [hbuild]
  rfl

@[simp]
theorem yields_call_iff {builder : Builder τ} {start : Nat} {production : Production τ}
    {value : τ} :
    (call builder start production).Yields cursor value after ↔
      builder.build production = .ok value ∧ after = cursor := by
  rw [Yields]
  cases hbuild : builder.build production with
  | ok built => simp [run_call_ok hbuild, eq_comm]
  | error construct => simp [run_call_error hbuild]

/-! ## Reads inside a decoding computation -/

instance : LawfulMonadLift Read (Decode τ) where
  monadLift_pure _ := rfl
  monadLift_bind first next := by
    apply Decode.ext
    intro cursor
    rw [run_bind]
    simp only [MonadLift.monadLift, ofRead, Read.run_bind]
    rcases first.run cursor with ⟨error | value, after⟩ <;> rfl

theorem liftM_times (count : Nat) (read : Read α) :
    (liftM (times count read) : Decode τ (List α)) = times count (liftM read) := by
  induction count with
  | zero => rfl
  | succ count ih => simp only [times, liftM_bind, liftM_pure, ih]

theorem yields_offset_iff {next : Nat → Decode τ β} {result : β} :
    ((liftM Read.offset : Decode τ Nat) >>= next).Yields cursor result after ↔
      (next cursor.offset).Yields cursor result after :=
  Iff.rfl

theorem fails_offset_iff {next : Nat → Decode τ β} {error : SignatureError} :
    ((liftM Read.offset : Decode τ Nat) >>= next).Fails cursor error after ↔
      (next cursor.offset).Fails cursor error after :=
  Iff.rfl

theorem yields_byte_iff {byte : UInt8} :
    (liftM Read.byte : Decode τ UInt8).Yields cursor byte after ↔
      cursor.Passes [byte] after := by
  rw [yields_lift_iff]
  constructor
  · intro hread
    rcases cursor with ⟨offset, _ | ⟨next, rest⟩⟩
    · simp at hread
    · simp only [Read.run_byte_cons, Prod.mk.injEq, Except.ok.injEq] at hread
      obtain ⟨rfl, rfl⟩ := hread
      exact ⟨rfl, rfl⟩
  · rintro ⟨hrest, hoffset⟩
    cases cursor
    cases after
    simp_all

theorem yields_peek_iff {byte : UInt8} :
    (liftM Read.peek : Decode τ UInt8).Yields cursor byte after ↔
      after = cursor ∧ ∃ rest, cursor.rest = byte :: rest := by
  rw [yields_lift_iff]
  rcases cursor with ⟨offset, _ | ⟨next, rest⟩⟩
  · simp
  · simp [eq_comm, and_comm]

theorem fails_byte_iff {error : SignatureError} :
    (liftM Read.byte : Decode τ UInt8).Fails cursor error after ↔
      error = .malformed cursor.offset .unexpectedEnd ∧ after = cursor ∧ cursor.rest = [] := by
  rw [fails_lift_iff]
  rcases cursor with ⟨offset, _ | ⟨next, rest⟩⟩
  · simp [eq_comm]
  · simp

theorem fails_peek_iff {error : SignatureError} :
    (liftM Read.peek : Decode τ UInt8).Fails cursor error after ↔
      error = .malformed cursor.offset .unexpectedEnd ∧ after = cursor ∧ cursor.rest = [] := by
  rw [fails_lift_iff]
  rcases cursor with ⟨offset, _ | ⟨next, rest⟩⟩
  · simp [eq_comm]
  · simp

theorem fails_finish_iff {error : SignatureError} :
    (liftM Read.finish : Decode τ Unit).Fails cursor error after ↔
      error = .malformed cursor.offset (.trailingBytes cursor.rest.length) ∧
        after = cursor ∧ cursor.rest ≠ [] := by
  rw [fails_lift_iff]
  rcases cursor with ⟨offset, _ | ⟨next, rest⟩⟩
  · simp
  · simp [eq_comm]

theorem yields_finish_iff :
    (liftM Read.finish : Decode τ Unit).Yields cursor () after ↔
      after = cursor ∧ cursor.rest = [] := by
  rw [yields_lift_iff]
  rcases cursor with ⟨offset, _ | ⟨next, rest⟩⟩
  · simp [eq_comm]
  · simp

theorem fails_malformedAt_iff {offset : Nat} {reason : Malformation}
    {error : SignatureError} :
    (liftM (Read.malformedAt offset reason : Read α) : Decode τ α).Fails cursor error after ↔
      error = .malformed offset reason ∧ after = cursor := by
  rw [fails_lift_iff, Read.run_malformedAt, Prod.mk.injEq, Except.error.injEq]
  exact and_congr eq_comm eq_comm

theorem fails_unsupported_iff {offset : Nat} {construct : Construct}
    {error : SignatureError} :
    (unsupported offset construct : Decode τ α).Fails cursor error after ↔
      error = .unsupported offset construct ∧ after = cursor := by
  change Except.error _ = Except.error _ ∧ cursor = after ↔ _
  rw [Except.error.injEq]
  exact and_congr eq_comm eq_comm

@[simp]
theorem not_yields_unsupported {offset : Nat} {construct : Construct} {value : α} :
    ¬ (unsupported offset construct : Decode τ α).Yields cursor value after := by
  simp [Yields, unsupported, ofRead]

/-! ## Languages -/

/-- The bytes that the computation passes over are exactly the words of the
language for the value that it yields. -/
def Recognizes (computation : Decode τ α) (language : α → List UInt8 → Prop) : Prop :=
  ∀ cursor value after, computation.Yields cursor value after ↔
    ∃ bytes, language value bytes ∧ cursor.Passes bytes after

end Decode

/-- Words written one after another, each for one of the values. -/
inductive Sequence {α : Type} (item : α → List UInt8 → Prop) :
    List α → List UInt8 → Prop
  | nil : Sequence item [] []
  | cons {value : α} {values : List α} {head tail : List UInt8} :
      item value head → Sequence item values tail →
        Sequence item (value :: values) (head ++ tail)

namespace Decode

variable {τ α : Type} {language : α → List UInt8 → Prop}

theorem Recognizes.congr {computation : Decode τ α} {other : α → List UInt8 → Prop}
    (hcomputation : computation.Recognizes language)
    (hsame : ∀ value bytes, language value bytes ↔ other value bytes) :
    computation.Recognizes other := by
  intro cursor value after
  rw [hcomputation cursor value after]
  simp only [hsame]

/-- Repeating a computation recognizes the sequences of that length. -/
theorem Recognizes.times {item : Decode τ α} (hitem : item.Recognizes language)
    (count : Nat) :
    (Signature.times count item).Recognizes fun values bytes =>
      values.length = count ∧ Sequence language values bytes := by
  induction count with
  | zero =>
      intro cursor values after
      change (pure [] : Decode τ (List α)).Yields _ _ _ ↔ _
      rw [yields_pure_iff]
      constructor
      · rintro ⟨rfl, rfl⟩
        exact ⟨[], ⟨rfl, .nil⟩, .refl _⟩
      · rintro ⟨bytes, ⟨hlength, hsequence⟩, hpasses⟩
        cases hsequence with
        | nil => exact ⟨rfl, Cursor.passes_nil_iff.mp hpasses⟩
        | cons => simp at hlength
  | succ count ih =>
      intro cursor values after
      change (item >>= fun head => Signature.times count item >>= fun tail =>
        pure (head :: tail)).Yields _ _ _ ↔ _
      constructor
      · intro hyields
        obtain ⟨head, middle, hhead, hyields⟩ := yields_bind_iff.mp hyields
        obtain ⟨tail, rest, htail, hyields⟩ := yields_bind_iff.mp hyields
        obtain ⟨rfl, rfl⟩ := yields_pure_iff.mp hyields
        obtain ⟨first, hfirst, hpassesFirst⟩ := (hitem _ _ _).mp hhead
        obtain ⟨others, ⟨hlength, hothers⟩, hpassesOthers⟩ := (ih _ _ _).mp htail
        exact ⟨first ++ others, ⟨by simp [hlength], .cons hfirst hothers⟩,
          hpassesFirst.trans hpassesOthers⟩
      · rintro ⟨bytes, ⟨hlength, hsequence⟩, hpasses⟩
        cases hsequence with
        | nil => simp at hlength
        | cons hfirst hothers =>
            obtain ⟨middle, hpassesFirst, hpassesOthers⟩ :=
              Cursor.passes_append_iff.mp hpasses
            have hhead := (hitem _ _ _).mpr ⟨_, hfirst, hpassesFirst⟩
            have htail := (ih _ _ _).mpr
              ⟨_, ⟨by simpa using hlength, hothers⟩, hpassesOthers⟩
            exact hhead.bind (htail.bind (yields_pure_iff.mpr ⟨rfl, rfl⟩))

/-- A repetition fails behind some of its items, in one more of them. -/
theorem fails_times {item : Decode τ α} (hitem : item.Recognizes language) {count : Nat}
    {cursor after : Cursor} {error : SignatureError}
    (hfails : (Signature.times count item).Fails cursor error after) :
    ∃ values bytes middle, values.length < count ∧ Sequence language values bytes ∧
      cursor.Passes bytes middle ∧ item.Fails middle error after := by
  induction count generalizing cursor with
  | zero => exact absurd hfails not_fails_pure
  | succ count ih =>
      change (item >>= fun head => Signature.times count item >>= fun tail =>
        pure (head :: tail)).Fails _ _ _ at hfails
      rcases fails_bind_iff.mp hfails with hhead | ⟨head, middle, hhead, hfails⟩
      · exact ⟨[], [], cursor, Nat.succ_pos count, .nil, .refl cursor, hhead⟩
      rcases fails_bind_iff.mp hfails with htail | ⟨tail, _, _, hfails⟩
      · obtain ⟨first, hfirst, hpassesFirst⟩ := (hitem _ _ _).mp hhead
        obtain ⟨values, others, place, hlength, hothers, hpassesOthers, hlast⟩ := ih htail
        exact ⟨head :: values, first ++ others, place, Nat.succ_lt_succ hlength,
          .cons hfirst hothers, hpassesFirst.trans hpassesOthers, hlast⟩
      · exact absurd hfails not_fails_pure

end Decode

end TypeProjection.Signature

import TypeProjection.Proofs.Signature.Simulation
import TypeProjection.Signature.Spelling

/-!
# Answers of entry points

The grammar of whole signatures, for all entry points at once, and what the decoder
answers on them.  A builder that accepts everything answers like the builder of trees,
with what it makes of the trees.
-/

namespace TypeProjection.Signature

variable {τ : Type}

/-- The value that bytes are recognized as is the only one. -/
theorem Decode.Recognizes.unique {α : Type} {computation : Decode τ α}
    {language : α → List UInt8 → Prop} (hcomputation : computation.Recognizes language)
    {value other : α} {bytes : List UInt8} (hvalue : language value bytes)
    (hother : language other bytes) : value = other := by
  have hpasses : (Cursor.start bytes).Passes bytes ⟨bytes.length, []⟩ :=
    ⟨(List.append_nil bytes).symm, (Nat.zero_add _).symm⟩
  have hyields := (hcomputation _ _ _).mpr ⟨bytes, hvalue, hpasses⟩
  have hyieldsOther := (hcomputation _ _ _).mpr ⟨bytes, hother, hpasses⟩
  exact Except.ok.inj (hyields.1.symm.trans hyieldsOther.1)

/-- The types of an answer, from left to right. -/
def Answer.types : Answer τ → List τ
  | .type value => [value]
  | .method signature => signature.types
  | .finished => []

/-- The bytes are a whole signature, and an encoding of the answer. -/
inductive EntryForm : Entry → Answer TypeTree → List UInt8 → Prop
  | type {tree : TypeTree} {bytes : List UInt8} :
      Encodes tree bytes → EntryForm .type (.type tree) bytes
  | field {tree : TypeTree} {bytes : List UInt8} :
      FieldForm Encodes tree bytes → EntryForm .field (.type tree) bytes
  | method {signature : MethodSignature TypeTree} {bytes : List UInt8} :
      MethodForm Encodes signature bytes → EntryForm .method (.method signature) bytes

theorem exists_nesting_le (trees : List TypeTree) :
    ∃ levels, ∀ tree ∈ trees, tree.nesting ≤ levels := by
  have hdepths := TypeTree.foldr_max_le_iff.mp (Nat.le_refl ((trees.map (·.nesting)).foldr max 0))
  exact ⟨_, List.forall_mem_map.mp hdepths⟩

/-- The grammar is not ambiguous: a blob is an encoding of at most one answer. -/
theorem EntryForm.unique {signature : Entry} {answer other : Answer TypeTree}
    {blob : List UInt8} (hanswer : EntryForm signature answer blob)
    (hother : EntryForm signature other blob) : answer = other := by
  -- Levels enough for both answers make both of them what a single decoder yields.
  obtain ⟨levels, hlevels⟩ := exists_nesting_le (answer.types ++ other.types)
  obtain ⟨hfirst, hsecond⟩ := List.forall_mem_append.mp hlevels
  have htype := Decode.recognizes_typeWithin levels
  cases hanswer with
  | type hencodes =>
      cases hother with
      | type hencodesOther =>
          have hfirst := List.forall_mem_singleton.mp hfirst
          have hsecond := List.forall_mem_singleton.mp hsecond
          rw [htype.unique ⟨hencodes, hfirst⟩ ⟨hencodesOther, hsecond⟩]
  | field hfield =>
      cases hother with
      | field hfieldOther =>
          have hfirst := List.forall_mem_singleton.mp hfirst
          have hsecond := List.forall_mem_singleton.mp hsecond
          have hrecognizes := Decode.recognizes_field htype
          rw [hrecognizes.unique (fieldForm_and_iff.mpr ⟨hfield, hfirst⟩)
            (fieldForm_and_iff.mpr ⟨hfieldOther, hsecond⟩)]
  | method hmethod =>
      cases hother with
      | method hmethodOther =>
          have hrecognizes := Decode.recognizes_method htype Decode.startsTypes_encodes
          rw [hrecognizes.unique (methodForm_and_iff.mpr ⟨hmethod, hfirst⟩)
            (methodForm_and_iff.mpr ⟨hmethodOther, hsecond⟩)]

theorem Decode.return_eq_ok_iff {α β : Type} {computation : Decode τ α} {f : α → β}
    {cursor : Cursor} {value : β} :
    ((do return f (← computation) : Decode τ β).run cursor).result = .ok value ↔
      ∃ part, (computation.run cursor).result = .ok part ∧ value = f part := by
  constructor
  · intro hvalue
    obtain ⟨part, after, hpart, hpure⟩ := yields_bind_iff.mp ⟨hvalue, rfl⟩
    exact ⟨part, hpart.1, (yields_pure_iff.mp hpure).1⟩
  · rintro ⟨part, hpart, rfl⟩
    have hyields : (do return f (← computation) : Decode τ β).Yields cursor (f part) _ :=
      Yields.bind ⟨hpart, rfl⟩ (yields_pure_iff.mpr ⟨rfl, rfl⟩)
    exact hyields.1

/-- With the builder of trees, an entry point answers exactly on the whole signatures in
which nothing is nested too deeply. -/
theorem answer_iff_entryForm {signature : Entry} {answer : Answer TypeTree}
    {blob : List UInt8} :
    ((Decode.entry Builder.tree signature).run (.start blob)).result = .ok answer ↔
      EntryForm signature answer blob ∧ ∀ tree ∈ answer.types, tree.nesting ≤ maxNesting := by
  cases signature with
  | type =>
      rw [Decode.entry, Decode.return_eq_ok_iff]
      simp only [wholeType_eq_ok_iff]
      constructor
      · rintro ⟨tree, ⟨hencodes, hnesting⟩, rfl⟩
        exact ⟨.type hencodes, List.forall_mem_singleton.mpr hnesting⟩
      · rintro ⟨hform, hnesting⟩
        cases hform with
        | type hencodes =>
            have hnesting := List.forall_mem_singleton.mp hnesting
            exact ⟨_, ⟨hencodes, hnesting⟩, rfl⟩
  | field =>
      rw [Decode.entry, Decode.return_eq_ok_iff]
      simp only [wholeField_eq_ok_iff]
      constructor
      · rintro ⟨tree, ⟨hfield, hnesting⟩, rfl⟩
        exact ⟨.field hfield, List.forall_mem_singleton.mpr hnesting⟩
      · rintro ⟨hform, hnesting⟩
        cases hform with
        | field hfield =>
            have hnesting := List.forall_mem_singleton.mp hnesting
            exact ⟨_, ⟨hfield, hnesting⟩, rfl⟩
  | method =>
      rw [Decode.entry, Decode.return_eq_ok_iff]
      simp only [wholeMethod_eq_ok_iff]
      constructor
      · rintro ⟨method, ⟨hmethod, hnesting⟩, rfl⟩
        exact ⟨.method hmethod, hnesting⟩
      · rintro ⟨hform, hnesting⟩
        cases hform with
        | method hmethod => exact ⟨_, ⟨hmethod, hnesting⟩, rfl⟩

theorem Builder.accepts_spelled (production : Production String) :
    Builder.spelled.Accepts production := by
  cases production <;> exact ⟨_, rfl⟩

/-- A builder that accepts everything answers with what it makes of the trees that the
builder of trees answers with. -/
theorem exists_answer_of_accepts {builder : Builder τ}
    (haccepts : ∀ production, builder.Accepts production) {signature : Entry}
    {cursor : Cursor} {answer : Answer τ}
    (hanswer : ((Decode.entry builder signature).run cursor).result = .ok answer) :
    ∃ trees, ((Decode.entry Builder.tree signature).run cursor).result = .ok trees ∧
      answer = trees.map builder.interpret := by
  rw [entry_eq_map haccepts] at hanswer
  generalize (Decode.entry Builder.tree signature).run cursor = run at hanswer
  obtain ⟨error | trees, after, calls⟩ := run
  · cases hanswer
  · exact ⟨trees, rfl, (Except.ok.inj hanswer).symm⟩

/-- What the builder of trees fails with, every builder that accepts everything fails
with, at the same place. -/
theorem fails_of_accepts {builder : Builder τ}
    (haccepts : ∀ production, builder.Accepts production) {signature : Entry}
    {cursor after : Cursor} {error : SignatureError}
    (hfails : (Decode.entry Builder.tree signature).Fails cursor error after) :
    (Decode.entry builder signature).Fails cursor error after := by
  obtain ⟨herror, hafter⟩ := hfails
  rw [Decode.Fails, entry_eq_map haccepts]
  simp only [Run.map, herror, hafter, Except.map, and_self]

end TypeProjection.Signature

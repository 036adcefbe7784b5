import TypeProjection.Proofs.Signature.Answers
import TypeProjection.Proofs.Signature.Displacement

/-!
# Calls of a builder

A builder receives the productions of a signature in the order in which they end, one
for each node of the tree that the signature stands for.  The bytes of a blob pay for
these calls: every call is preceded by a byte of its own, so that no count in a blob
brings about more calls than there are bytes.
-/

namespace TypeProjection.Signature

variable {τ α β : Type}

/-! ## Post-order -/

namespace TypeTree

mutual

/-- The productions of a tree in the order in which they end: those of its parts, in the
order in which they are written, and its own at last. -/
def postorder : TypeTree → List (Production TypeTree)
  | node (.core (.primitive code)) => [.core (.primitive code)]
  | node (.core (.definition handle form)) => [.core (.definition handle form)]
  | node (.core (.reference handle form)) => [.core (.reference handle form)]
  | node (.core (.array element dimensions)) =>
      element.postorder ++ [.core (.array element dimensions)]
  | node (.core (.pointer element)) => element.postorder ++ [.core (.pointer element)]
  | node (.optional (.vector element)) =>
      element.postorder ++ [.optional (.vector element)]
  | node (.optional (.specification handle form)) =>
      [.optional (.specification handle form)]
  | node (.optional (.byReference element)) =>
      element.postorder ++ [.optional (.byReference element)]
  | node (.optional (.functionPointer ⟨header, arity, returnType, parameters⟩)) =>
      returnType.postorder ++ postorderAll parameters ++
        [.optional (.functionPointer ⟨header, arity, returnType, parameters⟩)]
  | node (.optional (.genericInstance generic arguments)) =>
      generic.postorder ++ postorderAll arguments ++
        [.optional (.genericInstance generic arguments)]
  | node (.optional (.typeVariable index)) => [.optional (.typeVariable index)]
  | node (.optional (.methodVariable index)) => [.optional (.methodVariable index)]
  | node (.optional (.modified modifier unmodified isRequired)) =>
      modifier.postorder ++ unmodified.postorder ++
        [.optional (.modified modifier unmodified isRequired)]
  | node (.optional (.pinned element)) =>
      element.postorder ++ [.optional (.pinned element)]

/-- The productions of trees one after another. -/
def postorderAll : List TypeTree → List (Production TypeTree)
  | [] => []
  | tree :: trees => tree.postorder ++ postorderAll trees

end

theorem postorderAll_eq (trees : List TypeTree) :
    postorderAll trees = trees.flatMap postorder := by
  induction trees with
  | nil => rfl
  | cons tree trees ih => rw [postorderAll, ih, List.flatMap_cons]

end TypeTree

/-- The productions of all types of an answer, one type after another. -/
def Answer.postorder (answer : Answer TypeTree) : List (Production TypeTree) :=
  answer.types.flatMap TypeTree.postorder

namespace Decode

/-- Where the productions called so far are `before`, they are what `record` says of the
value once the computation has yielded it. -/
def Records (before : List (Production TypeTree)) (computation : Decode TypeTree α)
    (record : α → List (Production TypeTree)) : Prop :=
  ∀ cursor value, (computation.run cursor).result = .ok value →
    before ++ (computation.run cursor).calls.map Call.production = record value

/-- Whatever was called before, the computation adds to it the trace of its value. -/
def Traces (computation : Decode TypeTree α) (trace : α → List (Production TypeTree)) :
    Prop :=
  ∀ before, Records before computation fun value => before ++ trace value

variable {before : List (Production TypeTree)}

theorem Records.bind {first : Decode TypeTree α} {next : α → Decode TypeTree β}
    {middle : α → List (Production TypeTree)} {record : β → List (Production TypeTree)}
    (hfirst : Records before first middle)
    (hnext : ∀ value, Records (middle value) (next value) record) :
    Records before (first >>= next) record := by
  intro cursor result hresult
  have hfirst := hfirst cursor
  rw [run_bind] at hresult ⊢
  generalize first.run cursor = run at hfirst hresult
  obtain ⟨error | value, after, calls⟩ := run
  · cases hresult
  · have hnext := hnext value after result hresult
    rw [← hfirst value rfl, List.append_assoc] at hnext
    rw [List.map_append]
    exact hnext

theorem records_pure {value : α} {record : α → List (Production TypeTree)}
    (hrecord : before = record value) :
    Records before (pure value : Decode TypeTree α) record := by
  intro cursor result hresult
  obtain rfl := Except.ok.inj hresult
  rw [← hrecord]
  exact List.append_nil before

/-- A read calls nothing. -/
theorem records_read (read : Read α) :
    Records before (liftM read : Decode TypeTree α) fun _ => before :=
  fun _ _ _ => List.append_nil before

theorem records_of_not_yields {computation : Decode TypeTree α}
    {record : α → List (Production TypeTree)}
    (hnever : ∀ cursor value after, ¬ computation.Yields cursor value after) :
    Records before computation record :=
  fun cursor value hvalue => absurd ⟨hvalue, rfl⟩ (hnever cursor value _)

theorem records_call {start : Nat} {production : Production TypeTree}
    {record : TypeTree → List (Production TypeTree)}
    (hrecord : before ++ [production] = record (.node production)) :
    Records before (call Builder.tree start production) record := by
  intro cursor tree htree
  rw [run_call_ok (Builder.build_tree production)] at htree ⊢
  obtain rfl := Except.ok.inj htree
  exact hrecord

theorem Traces.times {item : Decode TypeTree α} {trace : α → List (Production TypeTree)}
    (hitem : Traces item trace) (count : Nat) :
    Traces (Signature.times count item) (List.flatMap trace) := by
  induction count with
  | zero => exact fun before => records_pure (List.append_nil before).symm
  | succ count ih =>
      intro before
      apply (hitem before).bind
      intro head
      apply (ih _).bind
      intro tail
      apply records_pure
      rw [List.flatMap_cons, List.append_assoc]

/-! ## Calls are made in post-order -/

/-- A production over a single part is called behind the calls of that part. -/
theorem Traces.called {part : Decode TypeTree α} {trace : α → List (Production TypeTree)}
    (hpart : Traces part trace) (start : Nat) (wrap : α → Production TypeTree)
    (hwrap : ∀ value,
      (TypeTree.node (wrap value)).postorder = trace value ++ [wrap value]) :
    Traces (part >>= fun value => call Builder.tree start (wrap value))
      TypeTree.postorder := by
  intro before
  apply (hpart before).bind
  intro value
  apply records_call
  rw [hwrap, List.append_assoc]

theorem traces_read (read : Read α) :
    Traces (liftM read : Decode TypeTree α) fun _ => [] := by
  intro before
  simp only [List.append_nil]
  exact records_read read

theorem postorder_of_named? {coded : UInt32} {form : NamedForm}
    {production : Production TypeTree} (hnamed : named? coded form = some production) :
    (TypeTree.node production).postorder = [production] := by
  have hname := named?_eq_some_iff.mp hnamed
  generalize coded.toNat = index at hname
  cases hname <;> rfl

theorem traces_named (form : NamedForm) (start : Nat) :
    Traces (named Builder.tree form start) TypeTree.postorder := by
  intro before
  apply (records_read Read.offset).bind
  intro codedStart
  apply (records_read Read.unsigned).bind
  intro coded
  cases hnamed : (named? coded form : Option (Production TypeTree)) with
  | none => exact records_of_not_yields (by simp)
  | some production =>
      apply records_call
      rw [postorder_of_named? hnamed]

section

variable {inner : Decode TypeTree TypeTree}

theorem traces_parameter (hinner : Traces inner TypeTree.postorder) :
    Traces (parameter inner) TypeTree.postorder := by
  intro before
  apply (records_read Read.peek).bind
  intro next
  by_cases hsentinel : next = ElementType.sentinel.code
  · rw [if_pos hsentinel]
    apply (records_read Read.offset).bind
    intro start
    exact records_of_not_yields (by simp)
  · rw [if_neg hsentinel]
    exact hinner before

theorem traces_methodTypes (hinner : Traces inner TypeTree.postorder) (header : Header)
    (genericArity : UInt32) :
    Traces (methodTypes inner header genericArity) fun signature =>
      signature.types.flatMap TypeTree.postorder := by
  intro before
  apply (records_read Read.unsigned).bind
  intro count
  apply (hinner before).bind
  intro returnType
  apply ((traces_parameter hinner).times count.toNat _).bind
  intro parameters
  apply records_pure
  rw [List.append_assoc, ← List.flatMap_cons]
  rfl

theorem traces_method (hinner : Traces inner TypeTree.postorder) :
    Traces (method inner) fun signature =>
      signature.types.flatMap TypeTree.postorder := by
  intro before
  rw [method_eq]
  apply (records_read (Read.header .method)).bind
  intro header
  by_cases hgeneric : header.isGeneric
  · rw [if_pos hgeneric]
    apply (records_read Read.unsigned).bind
    intro genericArity
    exact traces_methodTypes hinner header genericArity before
  · rw [if_neg hgeneric]
    exact traces_methodTypes hinner header 0 before

theorem traces_genericInstance (hinner : Traces inner TypeTree.postorder) (start : Nat) :
    Traces (composite Builder.tree inner start .genericInstance) TypeTree.postorder := by
  intro before
  apply (records_read Read.offset).bind
  intro genericStart
  apply (records_read namedForm).bind
  intro form
  apply (traces_named form genericStart before).bind
  intro generic
  apply (records_read Read.unsigned).bind
  intro count
  apply (hinner.times count.toNat _).bind
  intro arguments
  apply records_call
  rw [TypeTree.postorder, TypeTree.postorderAll_eq]
  simp only [List.append_assoc]

theorem traces_modified (hinner : Traces inner TypeTree.postorder) (start : Nat)
    (isRequired : Bool) :
    Traces (modified Builder.tree inner start isRequired) TypeTree.postorder := by
  intro before
  apply (records_read Read.offset).bind
  intro modifierStart
  apply (traces_named .classType modifierStart before).bind
  intro modifier
  apply (hinner _).bind
  intro unmodified
  apply records_call
  rw [TypeTree.postorder]
  simp only [List.append_assoc]

theorem traces_composite (hinner : Traces inner TypeTree.postorder) (start : Nat)
    (element : ElementType) :
    Traces (composite Builder.tree inner start element) TypeTree.postorder := by
  cases element with
  | pointer => exact hinner.called start _ fun _ => rfl
  | vector => exact hinner.called start _ fun _ => rfl
  | byReference => exact hinner.called start _ fun _ => rfl
  | pinned => exact hinner.called start _ fun _ => rfl
  | array =>
      intro before
      apply (hinner before).bind
      intro element
      apply (records_read Read.dimensions).bind
      intro dimensions
      apply records_call
      rw [TypeTree.postorder, List.append_assoc]
  | classType => exact traces_named .classType start
  | valueType => exact traces_named .valueType start
  | typeVariable => exact (traces_read Read.unsigned).called start _ fun _ => rfl
  | methodVariable => exact (traces_read Read.unsigned).called start _ fun _ => rfl
  | genericInstance => exact traces_genericInstance hinner start
  | functionPointer =>
      refine (traces_method hinner).called start _ fun signature => ?_
      rw [TypeTree.postorder, TypeTree.postorderAll_eq, ← List.flatMap_cons]
      rfl
  | requiredModifier => exact traces_modified hinner start true
  | optionalModifier => exact traces_modified hinner start false
  | typedReference => exact fun before => records_of_not_yields (by simp [composite])
  | sentinel => exact fun before => records_of_not_yields (by simp [composite])

end

/-- A type is called in post-order. -/
theorem traces_typeWithin (levels : Nat) :
    Traces (typeWithin Builder.tree levels) TypeTree.postorder := by
  induction levels with
  | zero => exact fun before => records_of_not_yields (by simp [typeWithin])
  | succ levels ih =>
      intro before
      apply (records_read Read.offset).bind
      intro start
      apply (records_read Read.byte).bind
      intro lead
      split
      next code _ => exact records_call rfl
      next =>
        split
        next element _ => exact traces_composite ih start element before
        next => exact records_of_not_yields (by simp)

theorem traces_wholeType : Traces (wholeType Builder.tree) TypeTree.postorder := by
  intro before
  apply (traces_typeWithin maxNesting before).bind
  intro tree
  apply (records_read Read.finish).bind
  intro _
  exact records_pure rfl

theorem traces_entry (signature : Entry) :
    Traces (entry Builder.tree signature) Answer.postorder := by
  intro before
  cases signature with
  | type =>
      apply (traces_wholeType before).bind
      intro tree
      apply records_pure
      rw [Answer.postorder, Answer.types, List.flatMap_singleton]
  | field =>
      have hfield : Traces (wholeField Builder.tree) TypeTree.postorder := by
        intro before
        apply (records_read (Read.header .field)).bind
        intro header
        exact traces_wholeType before
      apply (hfield before).bind
      intro tree
      apply records_pure
      rw [Answer.postorder, Answer.types, List.flatMap_singleton]
  | method =>
      have hmethod : Traces (wholeMethod Builder.tree) fun signature =>
          signature.types.flatMap TypeTree.postorder := by
        intro before
        apply (traces_method (traces_typeWithin maxNesting) before).bind
        intro signature
        apply (records_read Read.finish).bind
        intro _
        exact records_pure rfl
      apply (hmethod before).bind
      intro signature
      exact records_pure rfl

/-! ## Calls are paid for in bytes -/

/-- With `credit` calls paid for in advance, the computation makes no more calls than are
paid for, one for each byte that it passes; and once it has yielded, `left` are paid for
in advance. -/
structure Affords (credit left : Nat) (computation : Decode τ α) : Prop where
  paid : ∀ cursor, cursor.offset + (computation.run cursor).calls.length ≤
    (computation.run cursor).cursor.offset + credit
  kept : ∀ cursor value, (computation.run cursor).result = .ok value →
    cursor.offset + (computation.run cursor).calls.length + left ≤
      (computation.run cursor).cursor.offset + credit

variable {credit middle left : Nat}

theorem Affords.bind {first : Decode τ α} {next : α → Decode τ β}
    (hfirst : Affords credit middle first) (hnext : ∀ value, Affords middle left (next value)) :
    Affords credit left (first >>= next) where
  paid cursor := by
    have hpaid := hfirst.paid cursor
    have hkept := hfirst.kept cursor
    rw [run_bind]
    generalize first.run cursor = run at hpaid hkept
    obtain ⟨error | value, place, calls⟩ := run
    · exact hpaid
    · have hkept := hkept value rfl
      have hnext := (hnext value).paid place
      simp only [List.length_append] at hkept hnext ⊢
      omega
  kept cursor result hresult := by
    have hkept := hfirst.kept cursor
    rw [run_bind] at hresult ⊢
    generalize first.run cursor = run at hkept hresult
    obtain ⟨error | value, place, calls⟩ := run
    · cases hresult
    · have hkept := hkept value rfl
      have hnext := (hnext value).kept place result hresult
      simp only [List.length_append] at hkept hnext ⊢
      omega

/-- Calls may be paid for further in advance. -/
theorem Affords.widen {computation : Decode τ α} (haffords : Affords credit left computation)
    (more : Nat) : Affords (credit + more) (left + more) computation where
  paid cursor := by
    have hpaid := haffords.paid cursor
    omega
  kept cursor value hvalue := by
    have hkept := haffords.kept cursor value hvalue
    omega

/-- What is paid for need not be used up. -/
theorem Affords.spare {computation : Decode τ α}
    (haffords : Affords (credit + 1) (credit + 1) computation) :
    Affords (credit + 1) credit computation where
  paid := haffords.paid
  kept cursor value hvalue := by
    have hkept := haffords.kept cursor value hvalue
    omega

theorem affords_pure (value : α) : Affords credit credit (pure value : Decode τ α) where
  paid _ := Nat.le_add_right _ _
  kept _ _ _ := Nat.le_refl _

theorem Affords.times {item : Decode τ α} (hitem : Affords credit credit item) (count : Nat) :
    Affords credit credit (Signature.times count item) := by
  induction count with
  | zero => exact affords_pure []
  | succ count ih =>
      apply hitem.bind
      intro head
      apply ih.bind
      intro tail
      exact affords_pure (head :: tail)

/-- A call spends what one byte paid for. -/
theorem affords_call (builder : Builder τ) (start : Nat) (production : Production τ) :
    Affords (credit + 1) credit (call builder start production) where
  paid cursor := Nat.add_le_add_left (Nat.le_add_left 1 credit) cursor.offset
  kept cursor _ _ := Nat.le_of_eq (by
    change cursor.offset + 1 + credit = cursor.offset + (credit + 1)
    omega)

/-- What fails where it stands calls nothing, and leaves nothing to be paid for. -/
theorem affords_of_refuses {computation : Decode τ α}
    (hrefuses : ∀ cursor, ∃ error, computation.run cursor = ⟨.error error, cursor, []⟩) :
    Affords credit left computation where
  paid cursor := by
    obtain ⟨error, hrun⟩ := hrefuses cursor
    rw [hrun]
    exact Nat.le_add_right _ _
  kept cursor value hvalue := by
    obtain ⟨error, hrun⟩ := hrefuses cursor
    rw [hrun] at hvalue
    cases hvalue

theorem affords_offset : Affords credit credit (liftM Read.offset : Decode τ Nat) where
  paid _ := Nat.le_add_right _ _
  kept _ _ _ := Nat.le_refl _

/-- A read calls nothing, and it only moves forward. -/
theorem affords_read {read : Read α}
    (hread : Displaced 0 (liftM read : Decode τ α) (liftM read)) :
    Affords credit credit (liftM read : Decode τ α) where
  paid cursor := by
    obtain ⟨bytes, hpasses⟩ := hread.forward cursor
    exact Nat.add_le_add hpasses.offset_le (Nat.zero_le credit)
  kept cursor value hvalue := by
    obtain ⟨bytes, hpasses⟩ := hread.forward cursor
    exact Nat.add_le_add_right hpasses.offset_le credit

/-- A read whose words are not empty pays for a call. -/
theorem affords_word {read : Read α} {language : α → List UInt8 → Prop}
    (hread : Displaced 0 (liftM read : Decode τ α) (liftM read))
    (hrecognizes : (liftM read : Decode τ α).Recognizes language)
    (hword : ∀ value bytes, language value bytes → 0 < bytes.length) :
    Affords credit (credit + 1) (liftM read : Decode τ α) where
  paid := (affords_read hread).paid
  kept cursor value hvalue := by
    obtain ⟨bytes, hbytes, hpasses⟩ := (hrecognizes _ _ _).mp ⟨hvalue, rfl⟩
    have hlength := hword value bytes hbytes
    have hoffset := hpasses.offset
    change cursor.offset + 0 + (credit + 1) ≤ _
    omega

theorem affords_byte : Affords credit (credit + 1) (liftM Read.byte : Decode τ UInt8) := by
  apply affords_word displaced_byte recognizes_byte
  rintro byte bytes rfl
  exact Nat.one_pos

theorem affords_unsigned :
    Affords credit (credit + 1) (liftM Read.unsigned : Decode τ UInt32) := by
  apply affords_word displaced_unsigned recognizes_unsigned
  rintro number bytes ⟨width, -, rfl⟩
  cases width <;> exact Nat.succ_pos _

section

variable (builder : Builder τ)

/-- A name pays for its call with its coded index. -/
theorem affords_named (form : NamedForm) (start : Nat) :
    Affords credit credit (named builder form start) := by
  apply affords_offset.bind
  intro codedStart
  apply affords_unsigned.bind
  intro coded
  cases named? coded form with
  | none => exact affords_of_refuses fun _ => ⟨_, rfl⟩
  | some production => exact affords_call builder start production

variable {inner : Decode τ τ}

theorem affords_parameter (hinner : Affords credit credit inner) :
    Affords credit credit (parameter inner) := by
  apply (affords_read displaced_peek).bind
  intro next
  by_cases hsentinel : next = ElementType.sentinel.code
  · rw [if_pos hsentinel]
    exact affords_of_refuses fun _ => ⟨_, rfl⟩
  · rw [if_neg hsentinel]
    exact hinner

theorem affords_count : Affords credit credit (liftM Read.unsigned : Decode τ UInt32) :=
  affords_read displaced_unsigned

theorem affords_methodTypes (hinner : Affords credit credit inner) (header : Header)
    (genericArity : UInt32) : Affords credit credit (methodTypes inner header genericArity) := by
  apply affords_count.bind
  intro count
  apply hinner.bind
  intro returnType
  apply ((affords_parameter hinner).times count.toNat).bind
  intro parameters
  exact affords_pure (MethodSignature.mk header genericArity returnType parameters)

theorem affords_method (hinner : Affords credit credit inner) :
    Affords credit credit (method inner) := by
  rw [method_eq]
  apply (affords_read (displaced_header .method)).bind
  intro header
  by_cases hgeneric : header.isGeneric
  · rw [if_pos hgeneric]
    apply affords_count.bind
    exact affords_methodTypes hinner header
  · rw [if_neg hgeneric]
    exact affords_methodTypes hinner header 0

/-- A production is called with what was paid for before its single part. -/
theorem Affords.called {part : Decode τ α} (hpart : Affords 1 1 part) (start : Nat)
    (wrap : α → Production τ) :
    Affords 1 0 (part >>= fun value => call builder start (wrap value)) := by
  apply hpart.bind
  intro value
  exact affords_call builder start (wrap value)

theorem affords_modified (hinner : Affords 1 1 inner) (start : Nat) (isRequired : Bool) :
    Affords 1 0 (modified builder inner start isRequired) := by
  apply affords_offset.bind
  intro modifierStart
  apply (affords_named builder .classType modifierStart).bind
  intro modifier
  exact hinner.called builder start _

theorem affords_genericInstance (hinner : Affords 1 1 inner) (start : Nat) :
    Affords 1 0 (composite builder inner start .genericInstance) := by
  apply affords_offset.bind
  intro genericStart
  apply (affords_read displaced_namedForm).bind
  intro form
  apply (affords_named builder form genericStart).bind
  intro generic
  apply affords_count.bind
  intro count
  exact (hinner.times count.toNat).called builder start _

/-- What follows an element type is called with what the byte of that type paid for. -/
theorem affords_composite (hinner : Affords 1 1 inner) (start : Nat) (element : ElementType) :
    Affords 1 0 (composite builder inner start element) := by
  cases element with
  | pointer => exact hinner.called builder start _
  | vector => exact hinner.called builder start _
  | byReference => exact hinner.called builder start _
  | pinned => exact hinner.called builder start _
  | array =>
      apply hinner.bind
      intro element
      exact (affords_read displaced_dimensions).called builder start _
  | classType => exact (affords_named builder .classType start).spare
  | valueType => exact (affords_named builder .valueType start).spare
  | typeVariable => exact affords_count.called builder start _
  | methodVariable => exact affords_count.called builder start _
  | genericInstance => exact affords_genericInstance builder hinner start
  | functionPointer => exact (affords_method hinner).called builder start _
  | requiredModifier => exact affords_modified builder hinner start true
  | optionalModifier => exact affords_modified builder hinner start false
  | typedReference => exact affords_of_refuses fun _ => ⟨_, rfl⟩
  | sentinel => exact affords_of_refuses fun _ => ⟨_, rfl⟩

/-- A type pays for all calls that are made for it. -/
theorem affords_typeWithin (levels : Nat) : Affords 0 0 (typeWithin builder levels) := by
  induction levels with
  | zero => exact affords_of_refuses fun _ => ⟨_, rfl⟩
  | succ levels ih =>
      apply affords_offset.bind
      intro start
      apply affords_byte.bind
      intro lead
      split
      next code _ => exact affords_call builder start (.core (.primitive code))
      next =>
        split
        next element _ => exact affords_composite builder (ih.widen 1) start element
        next => exact affords_of_refuses fun _ => ⟨_, rfl⟩

theorem affords_step (next : Step) : Affords 0 0 (step builder next) := by
  have htype : Affords 0 0 (type builder) := affords_typeWithin builder maxNesting
  have hfinish {α : Type} (answer : α → Answer τ) (value : α) :
      Affords 0 0 (do
        Read.finish
        return answer value : Decode τ (Answer τ)) := by
    apply (affords_read displaced_finish).bind
    intro _
    exact affords_pure (answer value)
  rw [step_eq]
  cases next with
  | decode signature =>
      cases signature with
      | type => exact htype.bind (hfinish Answer.type)
      | field =>
          apply (affords_read (displaced_header .field)).bind
          intro header
          exact htype.bind (hfinish Answer.type)
      | method => exact (affords_method htype).bind (hfinish Answer.method)
  | finish => exact hfinish (fun _ => .finished) ()

end

end Decode

/-- A builder is called bottom-up, and no more often than there are bytes.  If it accepts
everything and a blob is decoded, then the blob is an encoding of trees, the answer is what
the builder makes of them, and the builder received the productions of these trees in
post-order, each over what it made of the parts.  And whatever a builder accepts, wherever
a step starts and however it ends, the calls of the step are at most the bytes that it
passed. -/
theorem entry_calls :
    (∀ {τ : Type} (builder : Builder τ), (∀ production, builder.Accepts production) →
      ∀ (signature : Entry) (blob : List UInt8) (answer : Answer τ),
        ((Decode.entry builder signature).run (.start blob)).result = .ok answer →
        ∃ trees, EntryForm signature trees blob ∧
          (∀ tree ∈ trees.types, tree.nesting ≤ maxNesting) ∧
          answer = trees.map builder.interpret ∧
          ((Decode.entry builder signature).run (.start blob)).calls.map Call.production =
            trees.postorder.map (Production.map builder.interpret)) ∧
    ∀ {τ : Type} (builder : Builder τ) (next : Step) (cursor : Cursor),
      cursor.offset ≤ ((Decode.step builder next).run cursor).cursor.offset ∧
        ((Decode.step builder next).run cursor).calls.length ≤
          ((Decode.step builder next).run cursor).cursor.offset - cursor.offset := by
  constructor
  · intro τ builder haccepts signature blob answer hanswer
    obtain ⟨trees, htrees, rfl⟩ := exists_answer_of_accepts haccepts hanswer
    obtain ⟨hform, hnesting⟩ := answer_iff_entryForm.mp htrees
    refine ⟨trees, hform, hnesting, rfl, ?_⟩
    have hcalls : _ = trees.postorder := Decode.traces_entry signature [] _ _ htrees
    rw [entry_eq_map haccepts, ← hcalls]
    simp only [Run.map, List.map_map, List.nil_append]
    rfl
  · intro τ builder next cursor
    have hpaid := (Decode.affords_step builder next).paid cursor
    omega

/-- A generic class over a pointer and a string, spelled; and a method that declares as many
parameters as can be declared, of which the first is declined. -/
theorem entry_calls_generic :
    (∃ trees, EntryForm .type trees [0x15, 0x12, 0x05, 0x02, 0x0F, 0x08, 0x0E] ∧
      trees.postorder.map (Production.map Builder.spelled.interpret) =
        [.core (.reference ⟨1⟩ .classType), .core (.primitive .int32),
          .core (.pointer "Int32"), .core (.primitive .string),
          .optional (.genericInstance "ref1:Class" ["Int32*", "String"])]) ∧
    ((Decode.step Builder.plain (.decode .method)).run
      ⟨3, [0x00, 0xDF, 0xFF, 0xFF, 0xFF, 0x01, 0x1D, 0x08]⟩).calls.length ≤ 11 - 3 := by
  obtain ⟨hcalls, hbytes⟩ := entry_calls
  constructor
  · have hanswer : ((Decode.entry Builder.spelled .type).run
        (.start [0x15, 0x12, 0x05, 0x02, 0x0F, 0x08, 0x0E])).result =
          .ok (.type "ref1:Class<Int32*, String>") := by
      rfl
    obtain ⟨trees, hform, -, -, htrees⟩ :=
      hcalls Builder.spelled Builder.accepts_spelled _ _ _ hanswer
    exact ⟨trees, hform, htrees.symm⟩
  · exact (hbytes Builder.plain (.decode .method) _).2

end TypeProjection.Signature

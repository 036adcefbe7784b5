import TypeProjection.Proofs.Signature.Scanning

/-!
# Refused signatures

With a builder that accepts everything, there are two reasons to refuse a signature that is
written by the grammar: a type may be nested too deeply, and a construct may be one that no
decoder represents.  Decoding stops where the first of them stands, and what it says does
not depend on the bytes from there on.
-/

namespace TypeProjection.Signature

variable {signature : Entry} {word before rest : List Letter} {letter : Letter}

theorem passes_bytesOf (word : List Letter) (after : List UInt8) :
    (Cursor.start (bytesOf word ++ after)).Passes (bytesOf word) ⟨word.length, after⟩ :=
  ⟨rfl, by simp [Cursor.start]⟩

/-- Behind clean letters decoding stops as the next letter tells, whatever follows. -/
theorem fails_entry (hword : Sentence signature (before ++ letter :: rest))
    (hbefore : Clean maxNesting before) {after : List UInt8} {error : SignatureError}
    {place : Cursor} (hstops : Stops maxNesting letter ⟨before.length, after⟩ error place)
    {τ : Type} {builder : Builder τ} (haccepts : ∀ production, builder.Accepts production) :
    (Decode.entry builder signature).Fails (.start (bytesOf before ++ after)) error place := by
  have hbody := (Decode.scans_body hword).stops before letter rest rfl hbefore _ _ error place
    (passes_bytesOf before after) hstops
  apply fails_of_accepts haccepts
  rw [Decode.entry_eq]
  exact Decode.fails_bind_iff.mpr (.inl hbody)

/-! ## The nesting limit -/

/-- Where nothing is refused for itself, a first offence is a type on the first level too
deep. -/
theorem Checked.within_or_exists_tooDeep {levels : Nat} (hchecked : Checked levels word)
    (hsupported : Supported word) :
    WithinLevels levels word ∨ ∃ before place lead rest,
      word = before ++ .type (levels + 1) place lead :: rest ∧ Clean levels before := by
  cases hchecked with
  | clean hclean => exact .inl hclean.2
  | @offends before rest letter hbefore hletter =>
      have hnone := (supported_cons_iff.mp (supported_append_iff.mp hsupported).2).1
      have hlevel := hletter.resolve_left fun hrefused => hrefused hnone
      cases letter with
      | type level place lead =>
          obtain rfl := Option.some.inj hlevel
          exact .inr ⟨before, place, lead, rest, rfl, hbefore⟩
      | sentinel => cases hlevel
      | other byte => cases hlevel

/-- The levels of the letters tell how deep the trees of an answer are nested. -/
theorem withinLevels_iff_nesting_le {answer : Answer TypeTree}
    (hform : EntryForm signature answer (bytesOf word)) (hword : Sentence signature word)
    (hsupported : Supported word) :
    WithinLevels maxNesting word ↔ ∀ tree ∈ answer.types, tree.nesting ≤ maxNesting := by
  constructor
  · intro hwithin
    have hpasses := passes_bytesOf word []
    rw [List.append_nil] at hpasses
    obtain ⟨other, hother⟩ :=
      (Decode.scans_body hword).yields ⟨hsupported, hwithin⟩ _ _ hpasses
    have hyields : (Decode.entry Builder.tree signature).Yields (.start (bytesOf word)) other
        ⟨word.length, []⟩ := by
      rw [Decode.entry_eq]
      apply hother.bind
      apply (Decode.yields_finish_iff.mpr ⟨rfl, rfl⟩).bind
      exact Decode.yields_pure_iff.mpr ⟨rfl, rfl⟩
    obtain ⟨hformOther, hnesting⟩ := answer_iff_entryForm.mp hyields.1
    rwa [hform.unique hformOther]
  · intro hnesting
    have hchecked : Checked maxNesting word := checked_sentence hword
    rcases hchecked.within_or_exists_tooDeep hsupported with
      hwithin | ⟨before, place, lead, rest, rfl, hbefore⟩
    · exact hwithin
    · -- Here the decoder would stop, in trees that it has levels enough for.
      have hanswer := answer_iff_entryForm.mpr ⟨hform, hnesting⟩
      have hfails : (Decode.entry Builder.tree signature).Fails
          (.start (bytesOf before ++ lead :: bytesOf rest)) _ _ :=
        fails_entry hword hbefore (.tooDeep (Nat.lt_succ_self _)) Builder.accepts_tree
      rw [bytesOf_append, bytesOf_cons, Letter.byte] at hanswer
      cases hanswer.symm.trans hfails.1

/-- A signature with a type in it that is nested too deeply is refused at one exact place.
It has an annotation, and in any annotation there is a first type that starts on the first
level too deep.  There every builder that accepts everything fails, and leaves that type
unread, whatever stands from there on. -/
theorem entry_tooDeep {answer : Answer TypeTree} {blob : List UInt8}
    (hform : EntryForm signature answer blob)
    (hdeep : ∃ tree ∈ answer.types, maxNesting < tree.nesting) :
    (∃ word, Sentence signature word ∧ bytesOf word = blob ∧ Supported word) ∧
    ∀ word, Sentence signature word → bytesOf word = blob → Supported word →
      ∃ before place lead rest,
        word = before ++ .type (maxNesting + 1) place lead :: rest ∧
        WithinLevels maxNesting before ∧
        ∀ {τ : Type} (builder : Builder τ), (∀ production, builder.Accepts production) →
          ∀ after, (Decode.entry builder signature).Fails (.start (bytesOf before ++ after))
            (.malformed before.length .nestingTooDeep) ⟨before.length, after⟩ := by
  refine ⟨annotated_of_entryForm hform, ?_⟩
  rintro word hword rfl hsupported
  have hchecked : Checked maxNesting word := checked_sentence hword
  rcases hchecked.within_or_exists_tooDeep hsupported with
    hwithin | ⟨before, place, lead, rest, rfl, hbefore⟩
  · obtain ⟨tree, hmember, hnesting⟩ := hdeep
    have hbound := (withinLevels_iff_nesting_le hform hword hsupported).mp hwithin
    exact absurd hnesting (Nat.not_lt.mpr (hbound tree hmember))
  · refine ⟨before, place, lead, rest, rfl, hbefore.2, ?_⟩
    intro τ builder haccepts after
    exact fails_entry hword hbefore (.tooDeep (Nat.lt_succ_self _)) haccepts

def TypeTree.pointers (element : TypeTree) : Nat → TypeTree
  | 0 => element
  | count + 1 => .node (.core (.pointer (element.pointers count)))

theorem encodes_pointers {element : TypeTree} {bytes : List UInt8}
    (helement : Encodes element bytes) (count : Nat) :
    Encodes (element.pointers count)
      (List.replicate count ElementType.pointer.code ++ bytes) := by
  induction count with
  | zero => exact helement
  | succ count ih => exact .of (.composite (.pointer ih))

theorem nesting_pointers (element : TypeTree) (count : Nat) :
    (element.pointers count).nesting = count + element.nesting := by
  induction count with
  | zero => exact (Nat.zero_add _).symm
  | succ count ih =>
      have hstep : (element.pointers (count + 1)).nesting =
          1 + max (element.pointers count).nesting 0 :=
        TypeTree.fold_node _ _
      omega

/-- A generic class over an integer and over pointers to `void`, one for every level that
is left. -/
theorem exists_encodes_tooDeep :
    ∃ tree, Encodes tree
        ([0x15, 0x12, 0x05, 0x02, 0x08] ++ List.replicate 127 0x0F ++ [0x01]) ∧
      maxNesting < tree.nesting := by
  have hname : HandleForm (τ := TypeTree) .classType (.core (.reference ⟨1⟩ .classType)) [0x05] :=
    ⟨_, .reference (by decide) (by decide), .one, by decide, rfl⟩
  have hinteger : Encodes (.node (.core (.primitive .int32))) [0x08] := .of (.primitive .int32)
  have hvoid : Encodes (.node (.core (.primitive .void))) [0x01] := .of (.primitive .void)
  refine ⟨_, .of (.composite (.genericInstance hname ⟨.one, by decide, rfl⟩
    (.cons hinteger (.cons (encodes_pointers hvoid 127) .nil)))), ?_⟩
  apply Nat.lt_of_not_le
  intro hnesting
  have hpointers := TypeTree.nesting_le_iff.mp hnesting _ (.tail _ (.head _))
  rw [nesting_pointers] at hpointers
  exact absurd hpointers (by decide)

set_option maxRecDepth 4000 in
/-- The class is refused behind the last pointer, whatever stands there. -/
theorem entry_tooDeep_generic :
    (∃ answer, EntryForm .type answer
        ([0x15, 0x12, 0x05, 0x02, 0x08] ++ List.replicate 127 0x0F ++ [0x01]) ∧
      ∃ tree ∈ answer.types, maxNesting < tree.nesting) ∧
    ∀ after, ((Decode.entry Builder.spelled .type).run (.start
      ([0x15, 0x12, 0x05, 0x02, 0x08] ++ List.replicate 127 0x0F ++ after))).result =
        .error (.malformed 132 .nestingTooDeep) := by
  obtain ⟨tree, hencodes, hnesting⟩ := exists_encodes_tooDeep
  have hform := EntryForm.type hencodes
  have hdeep : ∃ part ∈ (Answer.type tree).types, maxNesting < part.nesting :=
    ⟨tree, List.mem_singleton_self tree, hnesting⟩
  refine ⟨⟨_, hform, hdeep⟩, ?_⟩
  obtain ⟨⟨word, hword, hbytes, hsupported⟩, hplaces⟩ := entry_tooDeep hform hdeep
  obtain ⟨before, place, lead, rest, rfl, -, hfails⟩ := hplaces word hword hbytes hsupported
  rw [bytesOf_append, bytesOf_cons, Letter.byte] at hbytes
  have hspelled := hfails Builder.spelled Builder.accepts_spelled
  -- The run on the whole encoding tells how long the part before the offence is.
  have hresult : ((Decode.entry Builder.spelled .type).run
      (.start ([0x15, 0x12, 0x05, 0x02, 0x08] ++ List.replicate 127 0x0F ++ [0x01]))).result =
        .error (.malformed 132 .nestingTooDeep) := by
    rfl
  have hlength : before.length = 132 := by
    have hsame := (hspelled (lead :: bytesOf rest)).1
    rw [hbytes, hresult, Except.error.injEq, SignatureError.malformed.injEq] at hsame
    exact hsame.1.symm
  obtain ⟨hopening, -⟩ := List.append_inj hbytes (by rw [length_bytesOf, hlength]; rfl)
  intro after
  rw [← hopening, ← hlength]
  exact (hspelled after).1

/-! ## Refused constructs -/

/-- What is refused stops a decoder that has levels enough left.  A mark before variable
arguments stays unread. -/
theorem exists_stops {levels : Nat} {construct : Construct}
    (hconstruct : letter.construct? = some construct)
    (hlevel : ∀ level, letter.level? = some level → level ≤ levels) (offset : Nat)
    (after : List UInt8) :
    ∃ place, Stops levels letter ⟨offset, letter.byte :: after⟩
        (.unsupported offset construct) place ∧
      (construct = .sentinel → place = ⟨offset, letter.byte :: after⟩) := by
  cases letter with
  | type level place lead =>
      obtain ⟨rfl, hfound⟩ := Option.ite_none_right_eq_some.mp hconstruct
      obtain rfl := Option.some.inj hfound
      have hpasses : (Cursor.mk offset (ElementType.typedReference.code :: after)).Passes
          [ElementType.typedReference.code] ⟨offset + 1, after⟩ :=
        ⟨rfl, rfl⟩
      exact ⟨_, .typedReference (hlevel level rfl) hpasses, nofun⟩
  | sentinel =>
      obtain rfl := Option.some.inj hconstruct
      exact ⟨_, .sentinel rfl, fun _ => rfl⟩
  | other byte => cases hconstruct

/-- What no decoder represents is refused in the order of the bytes.  If a signature within
the nesting limit has typed references or marks before variable arguments in it, then every
builder that accepts everything fails at the first of them because of that construct, and
leaves a mark unread.  A mark in place of the first byte of a type that is no parameter,
with nothing refused before it, is malformed instead.  What follows does not matter. -/
theorem entry_refuses (hword : Sentence signature word)
    (hwithin : WithinLevels maxNesting word) :
    ((∃ letter ∈ word, letter.construct? ≠ none) →
      ∃ before letter rest construct,
        word = before ++ letter :: rest ∧ Supported before ∧
        letter.construct? = some construct ∧
        ∀ {τ : Type} (builder : Builder τ), (∀ production, builder.Accepts production) →
          ∀ after, ∃ place,
            (Decode.entry builder signature).Fails
              (.start (bytesOf before ++ letter.byte :: after))
              (.unsupported before.length construct) place ∧
            (construct = .sentinel → place = ⟨before.length, letter.byte :: after⟩)) ∧
    ∀ before level lead rest,
      word = before ++ .type level .elsewhere lead :: rest → Supported before →
        ∀ {τ : Type} (builder : Builder τ), (∀ production, builder.Accepts production) →
          ∀ after, (Decode.entry builder signature).Fails
            (.start (bytesOf before ++ ElementType.sentinel.code :: after))
            (.malformed before.length (.unknownElementType ElementType.sentinel.code))
            ⟨before.length + 1, after⟩ := by
  have hlevel {before rest : List Letter} {letter : Letter}
      (hsplit : word = before ++ letter :: rest) (level : Nat)
      (hfound : letter.level? = some level) : level ≤ maxNesting :=
    hwithin letter (hsplit ▸ List.mem_append_right before List.mem_cons_self) level hfound
  constructor
  · rintro ⟨letter, hmember, hrefused⟩
    have hchecked : Checked maxNesting word := checked_sentence hword
    cases hchecked with
    | clean hclean => exact absurd (hclean.1 letter hmember) hrefused
    | @offends before rest letter hbefore hletter =>
        have hlevel := hlevel rfl
        have hrefused := hletter.resolve_right fun hfound =>
          Nat.not_succ_le_self maxNesting (hlevel _ hfound)
        obtain ⟨construct, hconstruct⟩ := Option.ne_none_iff_exists'.mp hrefused
        refine ⟨before, letter, rest, construct, rfl, hbefore.1, hconstruct, ?_⟩
        intro τ builder haccepts after
        obtain ⟨place, hstops, hunread⟩ := exists_stops hconstruct hlevel before.length after
        exact ⟨place, fails_entry hword hbefore hstops haccepts, hunread⟩
  · rintro before level lead rest rfl hbefore τ builder haccepts after
    have hclean : Clean maxNesting before := ⟨hbefore, (withinLevels_append_iff.mp hwithin).1⟩
    have hpasses : (Cursor.mk before.length (ElementType.sentinel.code :: after)).Passes
        [ElementType.sentinel.code] ⟨before.length + 1, after⟩ :=
      ⟨rfl, rfl⟩
    exact fails_entry hword hclean (.misplaced (hlevel rfl level rfl) hpasses) haccepts

/-- A method whose parameters are an integer and, behind a mark, a typed reference; and the
same with a mark in place of the type that it returns. -/
theorem entry_refuses_varArgs :
    (∀ after, ((Decode.entry Builder.spelled .method).run
      (.start ([0x05, 0x02, 0x01, 0x08, 0x41] ++ after))).result =
        .error (.unsupported 4 .sentinel)) ∧
    ∀ after, ((Decode.entry Builder.spelled .method).run
      (.start ([0x05, 0x02, 0x41] ++ after))).result =
        .error (.malformed 2 (.unknownElementType 0x41)) := by
  have hword : Sentence .method (plain [0x05, 0x02] ++ ([.type 1 .elsewhere 0x01] ++
      ([.type 1 .parameter 0x08] ++ ([.sentinel, .type 1 .parameter 0x16] ++ [])))) :=
    .method (.mk (.plain rfl rfl ⟨.one, by decide, rfl⟩) (.primitive .void)
      (.more (.unmarked (.primitive .int32)) (.more (.marked .typedReference) .none)))
  have hwithin : WithinLevels maxNesting (plain [0x05, 0x02] ++ ([.type 1 .elsewhere 0x01] ++
      ([.type 1 .parameter 0x08] ++ ([.sentinel, .type 1 .parameter 0x16] ++ [])))) := by
    simp [WithinLevels, Letter.level?, plain, maxNesting]
  obtain ⟨hrefused, hmisplaced⟩ := entry_refuses hword hwithin
  constructor
  · obtain ⟨before, letter, rest, construct, hsplit, -, -, hfails⟩ :=
      hrefused ⟨.sentinel, by simp, Option.some_ne_none _⟩
    have hbytes : [0x05, 0x02, 0x01, 0x08] ++ 0x41 :: [0x16] =
        bytesOf before ++ letter.byte :: bytesOf rest := by
      rw [← bytesOf_cons, ← bytesOf_append, ← hsplit]
      rfl
    have hresult : ((Decode.entry Builder.spelled .method).run
        (.start ([0x05, 0x02, 0x01, 0x08] ++ 0x41 :: [0x16]))).result =
          .error (.unsupported 4 .sentinel) := by
      rfl
    have hspelled := hfails Builder.spelled Builder.accepts_spelled
    obtain ⟨place, hplace, -⟩ := hspelled (bytesOf rest)
    rw [← hbytes] at hplace
    obtain ⟨hlength, hconstruct⟩ :=
      SignatureError.unsupported.inj (Except.error.inj (hresult.symm.trans hplace.1))
    obtain ⟨hbefore, hletter⟩ := List.append_inj hbytes (by rw [length_bytesOf, ← hlength]; rfl)
    intro after
    obtain ⟨place, hplace, -⟩ := hspelled after
    rw [← hbefore, ← (List.cons.inj hletter).1, ← hlength, ← hconstruct] at hplace
    exact hplace.1
  · have hspelled := hmisplaced _ _ _ _ rfl (supported_plain [0x05, 0x02]) Builder.spelled
      Builder.accepts_spelled
    intro after
    exact (hspelled after).1

end TypeProjection.Signature

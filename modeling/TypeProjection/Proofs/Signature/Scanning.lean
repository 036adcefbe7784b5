import TypeProjection.Proofs.Signature.Annotation
import TypeProjection.Proofs.Signature.SelfDelimiting

/-!
# Scanning annotated signatures

A decoder goes through the letters of an annotated signature in their order.  As long as
they are clean it goes on, and at the first one that is not it stops, whatever follows.
So a type that is nested too deeply and a construct that is refused are reported where the
first of them stands.
-/

namespace TypeProjection.Signature

variable {levels : Nat}

/-! ## First offences -/

/-- The word holds nothing that is refused, and no type below the level. -/
def Clean (levels : Nat) (word : List Letter) : Prop :=
  Supported word ∧ WithinLevels levels word

@[simp]
theorem clean_append_iff {head tail : List Letter} :
    Clean levels (head ++ tail) ↔ Clean levels head ∧ Clean levels tail := by
  simp only [Clean, supported_append_iff, withinLevels_append_iff]
  exact and_and_and_comm

@[simp]
theorem clean_deeper_iff {word : List Letter} :
    Clean (levels + 1) (word.map Letter.deeper) ↔ Clean levels word := by
  simp only [Clean, supported_deeper_iff, withinLevels_deeper_iff]

@[simp]
theorem clean_plain (bytes : List UInt8) : Clean levels (plain bytes) :=
  ⟨supported_plain bytes, withinLevels_plain levels bytes⟩

theorem clean_nil : Clean levels [] :=
  clean_plain []

theorem clean_type_cons_iff {level : Nat} {place : Place} {lead : UInt8} {word : List Letter} :
    Clean levels (.type level place lead :: word) ↔
      ((Letter.type level place lead).construct? = none ∧ level ≤ levels) ∧
        Clean levels word := by
  have hwithin : WithinLevels levels (.type level place lead :: word) ↔
      level ≤ levels ∧ WithinLevels levels word := by
    simp [WithinLevels, Letter.level?]
  simp only [Clean, supported_cons_iff, hwithin]
  exact and_and_and_comm

/-- The word is clean, or there is a first letter that is not: something that is refused,
or a type on the first level too deep. -/
inductive Checked (levels : Nat) : List Letter → Prop
  | clean {word : List Letter} : Clean levels word → Checked levels word
  | offends {before rest : List Letter} {letter : Letter} :
      Clean levels before →
      letter.construct? ≠ none ∨ letter.level? = some (levels + 1) →
        Checked levels (before ++ letter :: rest)

theorem Checked.append {head tail : List Letter} (hhead : Checked levels head)
    (htail : Checked levels tail) : Checked levels (head ++ tail) := by
  cases hhead with
  | clean hhead =>
      cases htail with
      | clean htail => exact .clean (clean_append_iff.mpr ⟨hhead, htail⟩)
      | offends hbefore hletter =>
          rw [← List.append_assoc]
          exact .offends (clean_append_iff.mpr ⟨hhead, hbefore⟩) hletter
  | offends hbefore hletter =>
      rw [List.append_assoc, List.cons_append]
      exact .offends hbefore hletter

theorem checked_plain (bytes : List UInt8) : Checked levels (plain bytes) :=
  .clean (clean_plain bytes)

theorem checked_repeated {item : List Letter → Prop} {count : Nat} {word : List Letter}
    (hitem : ∀ word, item word → Checked levels word) (hword : Repeated item count word) :
    Checked levels word := by
  induction hword with
  | none => exact .clean clean_nil
  | more hhead _ ih => exact (hitem _ hhead).append ih

section

variable {item : Place → List Letter → Prop}
  (hitem : ∀ place word, item place word → Checked levels word)

include hitem

theorem checked_parameter {word : List Letter} (hword : ParameterPhrase item word) :
    Checked levels word := by
  cases hword with
  | unmarked hword => exact hitem _ _ hword
  | marked hword =>
      have hletter : Letter.sentinel.construct? ≠ none := Option.some_ne_none _
      exact .offends clean_nil (.inl hletter)

theorem checked_method {word : List Letter} (hword : MethodPhrase item word) :
    Checked levels word := by
  obtain ⟨hhead, hreturned, hlisted⟩ := hword
  have hparameters := checked_repeated (fun _ => checked_parameter hitem) hlisted
  exact (checked_plain _).append ((hitem _ _ hreturned).append hparameters)

theorem checked_remainder {element : ElementType} {word : List Letter}
    (hword : Remainder item element word) : Checked levels word := by
  cases hword with
  | element _ hword => exact hitem _ _ hword
  | array hword hshape => exact (hitem _ _ hword).append (checked_plain _)
  | named hname => exact checked_plain _
  | index _ hindex => exact checked_plain _
  | genericInstance hname hcount hlisted =>
      have harguments := checked_repeated (hitem .elsewhere) hlisted
      exact (checked_plain _).append
        ((checked_plain _).append ((checked_plain _).append harguments))
  | functionPointer hmethod => exact checked_method hitem hmethod
  | modified _ hname hword => exact (checked_plain _).append (hitem _ _ hword)

end

theorem construct?_primitive (place : Place) (code : Primitive) :
    (Letter.type 1 place code.code).construct? = none := by
  cases code <;> rfl

/-- Types that stand inside of one another go down one level at a time. -/
theorem checked_phrase {place : Place} {word : List Letter} (hword : Phrase place word) :
    Checked levels word := by
  induction levels generalizing place word with
  | zero =>
      have hfirst {lead : UInt8} {rest : List Letter} :
          Checked 0 (.type 1 place lead :: rest) :=
        .offends clean_nil (.inr rfl)
      cases hword with
      | primitive code => exact hfirst
      | typedReference => exact hfirst
      | composite hremainder => exact hfirst
  | succ levels ih =>
      cases hword with
      | primitive code =>
          have hletter := construct?_primitive place code
          exact .clean (clean_type_cons_iff.mpr ⟨⟨hletter, by omega⟩, clean_nil⟩)
      | typedReference =>
          have hletter : (Letter.type 1 place ElementType.typedReference.code).construct? ≠ none :=
            Option.some_ne_none _
          exact .offends clean_nil (.inl hletter)
      | @composite _ element word hremainder =>
          have hlead {word : List Letter} (hword : Clean levels word) :
              Clean (levels + 1) (.type 1 place element.code :: word.map Letter.deeper) :=
            clean_type_cons_iff.mpr
              ⟨⟨hremainder.construct?_eq_none, by omega⟩, clean_deeper_iff.mpr hword⟩
          cases checked_remainder (fun _ _ => ih) hremainder with
          | clean hword => exact .clean (hlead hword)
          | offends hbefore hletter =>
              rw [List.map_append, List.map_cons, ← List.cons_append]
              apply Checked.offends (hlead hbefore)
              rw [Letter.construct?_deeper, Letter.level?_deeper]
              exact hletter.imp_right fun hlevel => by rw [hlevel]; rfl

theorem checked_sentence {signature : Entry} {word : List Letter}
    (hword : Sentence signature word) : Checked levels word := by
  cases hword with
  | type hword => exact checked_phrase hword
  | field _ hword => exact (checked_plain _).append (checked_phrase hword)
  | method hmethod => exact checked_method (fun _ _ => checked_phrase) hmethod

/-! ## Computations that scan a word -/

/-- How a computation with a number of levels left to it stops at a place where a letter
stands, or stood before another byte was put there. -/
inductive Stops (levels : Nat) : Letter → Cursor → SignatureError → Cursor → Prop
  | tooDeep {level : Nat} {place : Place} {lead : UInt8} {cursor : Cursor} :
      levels < level →
        Stops levels (.type level place lead) cursor
          (.malformed cursor.offset .nestingTooDeep) cursor
  | typedReference {level : Nat} {place : Place} {cursor after : Cursor} :
      level ≤ levels → cursor.Passes [ElementType.typedReference.code] after →
        Stops levels (.type level place ElementType.typedReference.code) cursor
          (.unsupported cursor.offset .typedReference) after
  | sentinel {cursor : Cursor} {rest : List UInt8} :
      cursor.rest = ElementType.sentinel.code :: rest →
        Stops levels .sentinel cursor (.unsupported cursor.offset .sentinel) cursor
  | misplaced {level : Nat} {lead : UInt8} {cursor after : Cursor} :
      level ≤ levels → cursor.Passes [ElementType.sentinel.code] after →
        Stops levels (.type level .elsewhere lead) cursor
          (.malformed cursor.offset (.unknownElementType ElementType.sentinel.code)) after

theorem stops_deeper_iff {letter : Letter} {cursor after : Cursor} {error : SignatureError} :
    Stops (levels + 1) letter.deeper cursor error after ↔
      Stops levels letter cursor error after := by
  constructor
  · intro hstops
    cases letter with
    | type level place lead =>
        cases hstops with
        | tooDeep hlevel => exact .tooDeep (Nat.lt_of_succ_lt_succ hlevel)
        | typedReference hlevel hpasses =>
            exact .typedReference (Nat.le_of_succ_le_succ hlevel) hpasses
        | misplaced hlevel hpasses => exact .misplaced (Nat.le_of_succ_le_succ hlevel) hpasses
    | sentinel =>
        cases hstops with
        | sentinel hrest => exact .sentinel hrest
    | other byte => cases hstops
  · intro hstops
    cases hstops with
    | tooDeep hlevel => exact .tooDeep (Nat.succ_lt_succ hlevel)
    | typedReference hlevel hpasses => exact .typedReference (Nat.succ_le_succ hlevel) hpasses
    | sentinel hrest => exact .sentinel hrest
    | misplaced hlevel hpasses => exact .misplaced (Nat.succ_le_succ hlevel) hpasses

namespace Decode

variable {α β : Type}

/-- On a clean word the computation yields a value.  With the letters before some letter
clean, it goes as far and stops there as the letter tells, whatever follows. -/
structure Scans (levels : Nat) (computation : Decode TypeTree α) (word : List Letter) :
    Prop where
  yields : Clean levels word → ∀ cursor after, cursor.Passes (bytesOf word) after →
    ∃ value, computation.Yields cursor value after
  stops : ∀ before letter rest, word = before ++ letter :: rest → Clean levels before →
    ∀ cursor middle error after, cursor.Passes (bytesOf before) middle →
      Stops levels letter middle error after → computation.Fails cursor error after

/-- A letter of two words in a row is one of the first word or one of the second. -/
theorem append_eq_cons_cases {head tail before rest : List Letter} {letter : Letter}
    (hsplit : head ++ tail = before ++ letter :: rest) :
    (∃ more, head = before ++ letter :: more) ∨
      ∃ more, before = head ++ more ∧ tail = more ++ letter :: rest := by
  rcases List.append_eq_append_iff.mp hsplit with ⟨more, hbefore, htail⟩ | ⟨more, hhead, hrest⟩
  · exact .inr ⟨more, hbefore, htail⟩
  · cases more with
    | nil => exact .inr ⟨[], by simpa using hhead.symm, hrest.symm⟩
    | cons first more =>
        obtain ⟨rfl, -⟩ := List.cons.inj hrest
        exact .inl ⟨more, hhead⟩

theorem Scans.bind {first : Decode TypeTree α} {next : α → Decode TypeTree β}
    {head tail : List Letter} (hfirst : Scans levels first head)
    (hnext : Clean levels head → ∀ cursor value middle, first.Yields cursor value middle →
      cursor.Passes (bytesOf head) middle → Scans levels (next value) tail) :
    Scans levels (first >>= next) (head ++ tail) where
  yields hclean cursor after hpasses := by
    obtain ⟨hhead, htail⟩ := clean_append_iff.mp hclean
    rw [bytesOf_append] at hpasses
    obtain ⟨middle, hpassesHead, hpassesTail⟩ := Cursor.passes_append_iff.mp hpasses
    obtain ⟨value, hvalue⟩ := hfirst.yields hhead cursor middle hpassesHead
    obtain ⟨result, hresult⟩ :=
      (hnext hhead cursor value middle hvalue hpassesHead).yields htail middle after hpassesTail
    exact ⟨result, hvalue.bind hresult⟩
  stops before letter rest hsplit hclean cursor middle error after hpasses hstops := by
    rcases append_eq_cons_cases hsplit with ⟨more, hhead⟩ | ⟨more, rfl, htail⟩
    · have hfails := hfirst.stops before letter more hhead hclean cursor middle error after
        hpasses hstops
      exact fails_bind_iff.mpr (.inl hfails)
    · obtain ⟨hhead, hmore⟩ := clean_append_iff.mp hclean
      rw [bytesOf_append] at hpasses
      obtain ⟨place, hpassesHead, hpassesMore⟩ := Cursor.passes_append_iff.mp hpasses
      obtain ⟨value, hvalue⟩ := hfirst.yields hhead cursor place hpassesHead
      have hfails := (hnext hhead cursor value place hvalue hpassesHead).stops more letter rest
        htail hmore place middle error after hpassesMore hstops
      exact fails_bind_iff.mpr (.inr ⟨value, place, hvalue, hfails⟩)

/-- A word is scanned from its first letter on: that one is stopped at, or it is gone past
to a later one. -/
theorem scans_cons {computation : Decode TypeTree α} {first : Letter} {word : List Letter}
    (hyields : Clean levels (first :: word) → ∀ cursor after,
      cursor.Passes (first.byte :: bytesOf word) after →
        ∃ value, computation.Yields cursor value after)
    (hfirst : ∀ cursor error after, Stops levels first cursor error after →
      computation.Fails cursor error after)
    (hlater : ∀ before letter rest, word = before ++ letter :: rest →
      Clean levels (first :: before) → ∀ cursor middle error after,
        cursor.Passes (first.byte :: bytesOf before) middle →
          Stops levels letter middle error after → computation.Fails cursor error after) :
    Scans levels computation (first :: word) where
  yields := hyields
  stops before letter rest hsplit hclean cursor middle error after hpasses hstops := by
    cases before with
    | nil =>
        obtain ⟨rfl, -⟩ := List.cons.inj hsplit
        obtain rfl := Cursor.passes_nil_iff.mp hpasses
        exact hfirst middle error after hstops
    | cons _ before =>
        obtain ⟨rfl, hwords⟩ := List.cons.inj hsplit
        exact hlater before letter rest hwords hclean cursor middle error after hpasses hstops

/-- A word of one letter is stopped at that letter or not at all. -/
theorem scans_singleton {computation : Decode TypeTree α} {letter : Letter}
    (hyields : Clean levels [letter] → ∀ cursor after, cursor.Passes [letter.byte] after →
      ∃ value, computation.Yields cursor value after)
    (hstops : ∀ cursor error after, Stops levels letter cursor error after →
      computation.Fails cursor error after) :
    Scans levels computation [letter] :=
  scans_cons hyields hstops fun _ _ _ hsplit => absurd hsplit (by simp)

/-- What yields without reading scans the empty word. -/
theorem scans_nil {computation : Decode TypeTree α}
    (hyields : ∀ cursor, ∃ value, computation.Yields cursor value cursor) :
    Scans levels computation [] where
  yields _ cursor after hpasses := by
    obtain rfl := Cursor.passes_nil_iff.mp hpasses
    exact hyields after
  stops before letter rest hsplit := by simp at hsplit

theorem scans_pure (value : α) : Scans levels (pure value : Decode TypeTree α) [] :=
  scans_nil fun _ => ⟨value, yields_pure_iff.mpr ⟨rfl, rfl⟩⟩

theorem scans_call (start : Nat) (production : Production TypeTree) :
    Scans levels (call Builder.tree start production) [] :=
  scans_nil fun _ => ⟨_, yields_call_iff.mpr ⟨Builder.build_tree production, rfl⟩⟩

/-- What goes on without reading scans the word of what went before. -/
theorem Scans.andThen {first : Decode TypeTree α} {next : α → Decode TypeTree β}
    {word : List Letter} (hfirst : Scans levels first word)
    (hnext : ∀ value, Scans levels (next value) []) : Scans levels (first >>= next) word := by
  rw [← List.append_nil word]
  exact hfirst.bind fun _ _ value _ _ _ => hnext value

theorem Scans.offset {next : Nat → Decode TypeTree α} {word : List Letter}
    (hnext : ∀ start, Scans levels (next start) word) :
    Scans levels ((liftM Read.offset : Decode TypeTree Nat) >>= next) word where
  yields hclean cursor := (hnext cursor.offset).yields hclean cursor
  stops before letter rest hsplit hclean cursor :=
    (hnext cursor.offset).stops before letter rest hsplit hclean cursor

/-- Bytes that are recognized as a value hold nothing to stop at. -/
theorem Recognizes.scans {computation : Decode TypeTree α} {language : α → List UInt8 → Prop}
    (hcomputation : computation.Recognizes language) {value : α} {bytes : List UInt8}
    (hbytes : language value bytes) : Scans levels computation (plain bytes) where
  yields _ cursor after hpasses := by
    rw [bytesOf_plain] at hpasses
    exact ⟨value, (hcomputation _ _ _).mpr ⟨bytes, hbytes, hpasses⟩⟩
  stops before letter rest hsplit _ _ _ _ _ _ hstops := by
    have hmember : letter ∈ plain bytes := hsplit ▸ List.mem_append_right _ List.mem_cons_self
    obtain ⟨byte, -, rfl⟩ := List.mem_map.mp hmember
    cases hstops

/-- Bytes that are recognized as a value lead to what is done with that value. -/
theorem Recognizes.scans_bind {first : Decode TypeTree α} {next : α → Decode TypeTree β}
    {language : α → List UInt8 → Prop} (hfirst : first.Recognizes language) {value : α}
    {bytes : List UInt8} (hbytes : language value bytes) {word : List Letter}
    (hnext : Scans levels (next value) word) :
    Scans levels (first >>= next) (plain bytes ++ word) := by
  apply (hfirst.scans hbytes).bind
  intro _ cursor other middle hother hpasses
  rw [bytesOf_plain] at hpasses
  have hvalue := (hfirst _ _ _).mpr ⟨bytes, hbytes, hpasses⟩
  obtain rfl := Except.ok.inj (hother.1.symm.trans hvalue.1)
  exact hnext

theorem Scans.times {item : Decode TypeTree α} {language : List Letter → Prop} {count : Nat}
    {word : List Letter} (hitem : ∀ word, language word → Scans levels item word)
    (hword : Repeated language count word) :
    Scans levels (Signature.times count item) word := by
  induction hword with
  | none => exact scans_pure []
  | more hhead _ ih =>
      apply (hitem _ hhead).bind
      intro _ _ head _ _ _
      apply ih.andThen
      intro tail
      exact scans_pure (head :: tail)

/-! ## Words of types -/

theorem run_parameter {inner : Decode TypeTree TypeTree} {cursor : Cursor} {next : UInt8}
    {rest : List UInt8} (hrest : cursor.rest = next :: rest)
    (hnext : next ≠ ElementType.sentinel.code) :
    (parameter inner).run cursor = inner.run cursor := by
  obtain ⟨offset, bytes⟩ := cursor
  obtain rfl := hrest
  rw [parameter, run_bind]
  simp [hnext]

theorem fails_parameter_sentinel {inner : Decode TypeTree TypeTree} {cursor : Cursor}
    {rest : List UInt8} (hrest : cursor.rest = ElementType.sentinel.code :: rest) :
    (parameter inner).Fails cursor (.unsupported cursor.offset .sentinel) cursor := by
  refine fails_bind_iff.mpr (.inr ⟨_, cursor, yields_peek_iff.mpr ⟨rfl, rest, hrest⟩, ?_⟩)
  rw [if_pos rfl, fails_offset_iff]
  exact fails_unsupported_iff.mpr ⟨rfl, rfl⟩

/-- A production whose byte is that of an element type goes on with what follows it. -/
theorem fails_production {inner : Decode TypeTree TypeTree} {element : ElementType}
    {cursor middle after : Cursor} {error : SignatureError}
    (hlead : cursor.Passes [element.code] middle)
    (hfails : (composite Builder.tree inner cursor.offset element).Fails middle error after) :
    (production Builder.tree inner).Fails cursor error after := by
  rw [production, fails_offset_iff]
  refine fails_bind_iff.mpr (.inr ⟨_, middle, yields_byte_iff.mpr hlead, ?_⟩)
  rw [Primitive.ofCode?_element, ElementType.ofCode?_code]
  exact hfails

/-- A type stops at its own first byte, whatever that byte was before. -/
theorem fails_typeWithin {place : Place} {lead : UInt8} {cursor after : Cursor}
    {error : SignatureError} (hstops : Stops levels (.type 1 place lead) cursor error after) :
    (typeWithin Builder.tree levels).Fails cursor error after := by
  cases hstops with
  | tooDeep hlevel =>
      obtain rfl := Nat.lt_one_iff.mp hlevel
      rw [typeWithin, fails_lift_iff]
      exact Read.run_malformed .nestingTooDeep cursor
  | typedReference hlevel hlead =>
      obtain ⟨levels, rfl⟩ := Nat.exists_eq_add_of_le' hlevel
      exact fails_production hlead (fails_unsupported_iff.mpr ⟨rfl, rfl⟩)
  | misplaced hlevel hlead =>
      obtain ⟨levels, rfl⟩ := Nat.exists_eq_add_of_le' hlevel
      exact fails_production hlead (fails_malformedAt_iff.mpr ⟨rfl, rfl⟩)

theorem scans_named {form : NamedForm} {production : Production TypeTree} {name : List UInt8}
    (hname : HandleForm form production name) (start : Nat) :
    Scans levels (named Builder.tree form start) (plain name) :=
  (recognizes_named form start).scans ⟨production, rfl, hname⟩

/-- A production over a single part is scanned where its part is. -/
theorem scans_called {part : Decode TypeTree α} {word : List Letter}
    (hpart : Scans levels part word) (start : Nat) (wrap : α → Production TypeTree) :
    Scans levels (part >>= fun value => call Builder.tree start (wrap value)) word := by
  apply hpart.andThen
  intro value
  exact scans_call start (wrap value)

section

variable {inner : Decode TypeTree TypeTree}
  (hinner : ∀ place word, Phrase place word → Scans levels inner word)

include hinner

/-- A parameter is looked at before its level is counted, so there has to be one left. -/
theorem scans_parameter (hlevels : 1 ≤ levels) {word : List Letter}
    (hword : ParameterPhrase Phrase word) : Scans levels (parameter inner) word := by
  cases hword with
  | unmarked hword =>
      have hscans := hinner _ _ hword
      obtain ⟨lead, tail, rfl, hlead⟩ := hword.exists_eq_cons
      constructor
      · intro hclean cursor after hpasses
        rw [bytesOf_cons] at hpasses
        obtain ⟨value, hvalue⟩ := hscans.yields hclean cursor after hpasses
        refine ⟨value, ?_⟩
        rw [Yields, run_parameter hpasses.rest hlead]
        exact hvalue
      · intro before letter rest hsplit hclean cursor middle error after hpasses hstops
        have hnext : ∃ next bytes, cursor.rest = next :: bytes ∧
            next ≠ ElementType.sentinel.code := by
          cases before with
          | nil =>
              obtain ⟨rfl, -⟩ := List.cons.inj hsplit
              obtain rfl := Cursor.passes_nil_iff.mp hpasses
              cases hstops with
              | tooDeep hlevel => omega
              | typedReference _ hpasses => exact ⟨_, _, hpasses.rest, by decide⟩
          | cons first before =>
              obtain ⟨rfl, -⟩ := List.cons.inj hsplit
              exact ⟨lead, _, hpasses.rest, hlead⟩
        obtain ⟨next, bytes, hrest, hnext⟩ := hnext
        rw [Fails, run_parameter hrest hnext]
        exact hscans.stops before letter rest hsplit hclean cursor middle error after hpasses
          hstops
  | marked hword =>
      have hnever {word : List Letter} : ¬ Clean levels (.sentinel :: word) :=
        fun hclean => absurd (supported_cons_iff.mp hclean.1).1 (Option.some_ne_none _)
      apply scans_cons
      · intro hclean
        exact absurd hclean hnever
      · intro cursor error after hstops
        cases hstops with
        | sentinel hrest => exact fails_parameter_sentinel hrest
      · intro before letter rest _ hclean
        exact absurd hclean hnever

theorem scans_methodTypes (header : Header) (genericArity : UInt32) {parameters : Nat}
    {count : List UInt8} {returned listed : List Letter}
    (hcount : IntegerForm parameters count) (hreturned : Phrase .elsewhere returned)
    (hlisted : Repeated (ParameterPhrase Phrase) parameters listed) :
    Scans levels (methodTypes inner header genericArity)
      (plain count ++ (returned ++ listed)) := by
  obtain ⟨number, rfl, hcount⟩ := exists_unsignedForm hcount
  apply recognizes_unsigned.scans_bind hcount
  apply (hinner _ _ hreturned).bind
  intro hclean _ returnType _ _ _
  -- The type returned stands on the same level as the parameters.
  have hlevels : 1 ≤ levels := by
    obtain ⟨lead, rest, rfl, -⟩ := hreturned.exists_eq_cons
    exact (clean_type_cons_iff.mp hclean).1.2
  apply (Scans.times (fun _ => scans_parameter hinner hlevels) hlisted).andThen
  intro parameters
  exact scans_pure (MethodSignature.mk header genericArity returnType parameters)

theorem scans_method {word : List Letter} (hword : MethodPhrase Phrase word) :
    Scans levels (method inner) word := by
  obtain ⟨hhead, hreturned, hlisted⟩ := hword
  rw [method_eq]
  cases hhead with
  | plain hkind hgeneric hcount =>
      rw [← List.singleton_append, plain_append, List.append_assoc]
      apply (recognizes_header .method).scans_bind ⟨hkind, rfl⟩
      rw [if_neg (by simp [hgeneric])]
      exact scans_methodTypes hinner _ _ hcount hreturned hlisted
  | generic hkind hgeneric harity hcount =>
      rw [← List.singleton_append, plain_append, plain_append, List.append_assoc,
        List.append_assoc]
      apply (recognizes_header .method).scans_bind ⟨hkind, rfl⟩
      rw [if_pos hgeneric]
      apply recognizes_unsigned.scans_bind harity
      exact scans_methodTypes hinner _ _ hcount hreturned hlisted

theorem scans_modified (start : Nat) (isRequired : Bool) {modifier : Production TypeTree}
    {name : List UInt8} {word : List Letter} (hname : HandleForm .classType modifier name)
    (hword : Phrase .elsewhere word) :
    Scans levels (modified Builder.tree inner start isRequired) (plain name ++ word) := by
  apply Scans.offset
  intro modifierStart
  apply (scans_named hname modifierStart).bind
  intro _ _ modifier _ _ _
  exact scans_called (hinner _ _ hword) start _

theorem scans_composite (start : Nat) {element : ElementType} {word : List Letter}
    (hword : Remainder Phrase element word) :
    Scans levels (composite Builder.tree inner start element) word := by
  cases hword with
  | element hmember hword =>
      simp only [List.mem_cons, List.not_mem_nil, or_false] at hmember
      rcases hmember with rfl | rfl | rfl | rfl
      · exact scans_called (hinner _ _ hword) start _
      · exact scans_called (hinner _ _ hword) start _
      · exact scans_called (hinner _ _ hword) start _
      · exact scans_called (hinner _ _ hword) start _
  | array hword hshape =>
      apply (hinner _ _ hword).bind
      intro _ _ element _ _ _
      exact scans_called (recognizes_dimensions.scans hshape) start _
  | @named form _ name hname =>
      have hscans : Scans levels (named Builder.tree form start) (plain name) :=
        scans_named hname start
      cases form with
      | classType => exact hscans
      | valueType => exact hscans
  | index hmember hindex =>
      simp only [List.mem_cons, List.not_mem_nil, or_false] at hmember
      rcases hmember with rfl | rfl
      · exact scans_called (recognizes_unsigned.scans hindex) start _
      · exact scans_called (recognizes_unsigned.scans hindex) start _
  | genericInstance hname hcount hlisted =>
      apply Scans.offset
      intro genericStart
      apply recognizes_namedForm.scans_bind rfl
      apply (scans_named hname genericStart).bind
      intro _ _ generic _ _ _
      obtain ⟨number, rfl, hcount⟩ := exists_unsignedForm hcount
      apply recognizes_unsigned.scans_bind hcount
      exact scans_called (Scans.times (hinner .elsewhere) hlisted) start _
  | functionPointer hmethod => exact scans_called (scans_method hinner hmethod) start _
  | modified hmember hname hword =>
      have hscans (isRequired : Bool) := scans_modified hinner start isRequired hname hword
      simp only [List.mem_cons, List.not_mem_nil, or_false] at hmember
      rcases hmember with rfl | rfl
      · exact hscans true
      · exact hscans false

end

/-- A production scans its word on one more level than its parts. -/
theorem scans_production {place : Place} {word : List Letter} (hword : Phrase place word)
    (hinner : ∀ place word, Phrase place word →
      Scans levels (typeWithin Builder.tree levels) word) :
    Scans (levels + 1) (typeWithin Builder.tree (levels + 1)) word := by
  cases hword with
  | primitive code =>
      apply scans_singleton
      · intro _ cursor after hpasses
        exact ⟨_, yields_production_iff.mpr (.inl ⟨code, Builder.build_tree _, hpasses⟩)⟩
      · exact fun _ _ _ => fails_typeWithin
  | typedReference =>
      apply scans_singleton
      · intro hclean
        exact absurd (supported_cons_iff.mp hclean.1).1 (Option.some_ne_none _)
      · exact fun _ _ _ => fails_typeWithin
  | @composite _ element word hremainder =>
      have hscans (start : Nat) := scans_composite hinner start hremainder
      apply scans_cons
      · intro hclean cursor after hpasses
        have hword := clean_deeper_iff.mp (clean_type_cons_iff.mp hclean).2
        rw [bytesOf_deeper] at hpasses
        obtain ⟨middle, hlead, hpasses⟩ := Cursor.passes_cons_iff.mp hpasses
        obtain ⟨value, hvalue⟩ := (hscans cursor.offset).yields hword middle after hpasses
        exact ⟨value, yields_production_iff.mpr (.inr ⟨element, middle, hlead, hvalue⟩)⟩
      · exact fun _ _ _ => fails_typeWithin
      · -- The letter stands in a part, which is scanned with the levels counted from there.
        intro _ _ _ hsplit hclean cursor place error after hpasses hstops
        obtain ⟨before, tail, rfl, rfl, htail⟩ := List.map_eq_append_iff.mp hsplit
        obtain ⟨letter, rest, rfl, rfl, -⟩ := List.map_eq_cons_iff.mp htail
        have hbefore := clean_deeper_iff.mp (clean_type_cons_iff.mp hclean).2
        rw [bytesOf_deeper] at hpasses
        obtain ⟨middle, hlead, hpasses⟩ := Cursor.passes_cons_iff.mp hpasses
        exact fails_production hlead ((hscans cursor.offset).stops before letter rest rfl hbefore
          middle place error after hpasses (stops_deeper_iff.mp hstops))

/-- A decoder with a number of levels left to it scans the words of types. -/
theorem scans_typeWithin {place : Place} {word : List Letter} (hword : Phrase place word) :
    Scans levels (typeWithin Builder.tree levels) word := by
  induction levels generalizing place word with
  | zero =>
      obtain ⟨lead, tail, rfl, -⟩ := hword.exists_eq_cons
      have hnever {word : List Letter} : ¬ Clean 0 (.type 1 place lead :: word) :=
        fun hclean => absurd (clean_type_cons_iff.mp hclean).1.2 (by decide)
      apply scans_cons
      · intro hclean
        exact absurd hclean hnever
      · exact fun _ _ _ => fails_typeWithin
      · intro before letter rest _ hclean
        exact absurd hclean hnever
  | succ levels ih => exact scans_production hword fun _ _ => ih

/-! ## Whole signatures -/

theorem scans_body {signature : Entry} {word : List Letter} (hword : Sentence signature word) :
    Scans maxNesting (body Builder.tree signature) word := by
  cases hword with
  | type hword =>
      apply (scans_typeWithin hword).andThen
      intro tree
      exact scans_pure (Answer.type tree)
  | field hkind hword =>
      apply (recognizes_header .field).scans_bind ⟨hkind, rfl⟩
      apply (scans_typeWithin hword).andThen
      intro tree
      exact scans_pure (Answer.type tree)
  | method hmethod =>
      apply (scans_method (fun _ _ => scans_typeWithin) hmethod).andThen
      intro method
      exact scans_pure (Answer.method method)

end Decode

end TypeProjection.Signature

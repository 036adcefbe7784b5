import TypeProjection.Proofs.Signature.Answers

/-!
# Annotated signatures

The bytes of a signature with what stands at each of them: where types start and on which
level, and where the marks before variable arguments stand.  The grammar is wider than
that of the trees by what decoders refuse: a typed reference may stand for any type, and a
mark before any parameter.  Every encoding of a tree can be annotated.
-/

namespace TypeProjection.Signature

/-! ## Letters -/

/-- Whether a type is one of the parameters of a method or stands in another place. -/
inductive Place where
  | parameter
  | elsewhere
  deriving DecidableEq, Repr

/-- A byte of a signature with what stands there. -/
inductive Letter where
  /-- The first byte of a type, with the number of types that it stands inside of, itself
  included. -/
  | type (level : Nat) (place : Place) (lead : UInt8)
  /-- The mark before variable arguments. -/
  | sentinel
  /-- Any other byte. -/
  | other (byte : UInt8)
  deriving DecidableEq, Repr

namespace Letter

def byte : Letter → UInt8
  | type _ _ lead => lead
  | sentinel => ElementType.sentinel.code
  | other byte => byte

/-- The level of the type that starts at a letter. -/
def level? : Letter → Option Nat
  | type level _ _ => some level
  | sentinel => none
  | other _ => none

/-- The construct at a letter that no decoder represents. -/
def construct? : Letter → Option Construct
  | type _ _ lead => if lead = ElementType.typedReference.code then some .typedReference else none
  | sentinel => some .sentinel
  | other _ => none

/-- The same letter inside of one more type. -/
def deeper : Letter → Letter
  | type level place lead => type (level + 1) place lead
  | sentinel => sentinel
  | other byte => other byte

@[simp]
theorem byte_deeper (letter : Letter) : letter.deeper.byte = letter.byte := by
  cases letter <;> rfl

@[simp]
theorem construct?_deeper (letter : Letter) : letter.deeper.construct? = letter.construct? := by
  cases letter <;> rfl

@[simp]
theorem level?_deeper (letter : Letter) :
    letter.deeper.level? = letter.level?.map (· + 1) := by
  cases letter <;> rfl

end Letter

def bytesOf (word : List Letter) : List UInt8 :=
  word.map Letter.byte

/-- The word of bytes at which nothing of note stands. -/
def plain (bytes : List UInt8) : List Letter :=
  bytes.map Letter.other

@[simp]
theorem bytesOf_nil : bytesOf [] = [] :=
  rfl

@[simp]
theorem bytesOf_cons (letter : Letter) (word : List Letter) :
    bytesOf (letter :: word) = letter.byte :: bytesOf word :=
  rfl

@[simp]
theorem bytesOf_append (head tail : List Letter) :
    bytesOf (head ++ tail) = bytesOf head ++ bytesOf tail :=
  List.map_append

@[simp]
theorem bytesOf_plain (bytes : List UInt8) : bytesOf (plain bytes) = bytes := by
  rw [bytesOf, plain, List.map_map]
  exact List.map_id bytes

@[simp]
theorem plain_append (head tail : List UInt8) : plain (head ++ tail) = plain head ++ plain tail :=
  List.map_append

@[simp]
theorem bytesOf_deeper (word : List Letter) :
    bytesOf (word.map Letter.deeper) = bytesOf word := by
  simp [bytesOf]

@[simp]
theorem length_bytesOf (word : List Letter) : (bytesOf word).length = word.length :=
  List.length_map _

/-! ## Phrases -/

/-- So many words one after another. -/
inductive Repeated (item : List Letter → Prop) : Nat → List Letter → Prop
  | none : Repeated item 0 []
  | more {count : Nat} {head tail : List Letter} :
      item head → Repeated item count tail → Repeated item (count + 1) (head ++ tail)

section

variable (item : Place → List Letter → Prop)

/-- A parameter, possibly behind the mark before variable arguments. -/
inductive ParameterPhrase : List Letter → Prop
  | unmarked {word : List Letter} : item .parameter word → ParameterPhrase word
  | marked {word : List Letter} :
      item .parameter word → ParameterPhrase (.sentinel :: word)

/-- A method signature over types that are written by `item`. -/
inductive MethodPhrase : List Letter → Prop
  | mk {header : Header} {genericArity : UInt32} {parameters : Nat} {head : List UInt8}
      {returned listed : List Letter} :
      MethodHead header genericArity parameters head → item .elsewhere returned →
      Repeated (ParameterPhrase item) parameters listed →
        MethodPhrase (plain head ++ (returned ++ listed))

/-- What follows the byte of an element type, where the types inside are written by
`item`. -/
inductive Remainder : ElementType → List Letter → Prop
  | element {element : ElementType} {word : List Letter} :
      element ∈ [.pointer, .vector, .byReference, .pinned] → item .elsewhere word →
        Remainder element word
  | array {dimensions : Dimensions} {word : List Letter} {shape : List UInt8} :
      item .elsewhere word → DimensionsForm dimensions shape →
        Remainder .array (word ++ plain shape)
  | named {form : NamedForm} {production : Production TypeTree} {name : List UInt8} :
      HandleForm form production name → Remainder form.element (plain name)
  | index {element : ElementType} {index : UInt32} {bytes : List UInt8} :
      element ∈ [.typeVariable, .methodVariable] → UnsignedForm index bytes →
        Remainder element (plain bytes)
  | genericInstance {form : NamedForm} {generic : Production TypeTree} {arguments : Nat}
      {name count : List UInt8} {listed : List Letter} :
      HandleForm form generic name → IntegerForm arguments count →
      Repeated (item .elsewhere) arguments listed →
        Remainder .genericInstance
          (plain [form.element.code] ++ (plain name ++ (plain count ++ listed)))
  | functionPointer {word : List Letter} :
      MethodPhrase item word → Remainder .functionPointer word
  | modified {element : ElementType} {modifier : Production TypeTree} {name : List UInt8}
      {word : List Letter} :
      element ∈ [.requiredModifier, .optionalModifier] →
      HandleForm .classType modifier name → item .elsewhere word →
        Remainder element (plain name ++ word)

end

/-- A type in some place.  Types inside of it stand one level deeper; the name of a generic
type and a modifier are no types inside. -/
inductive Phrase : Place → List Letter → Prop
  | primitive {place : Place} (code : Primitive) : Phrase place [.type 1 place code.code]
  | typedReference {place : Place} :
      Phrase place [.type 1 place ElementType.typedReference.code]
  | composite {place : Place} {element : ElementType} {word : List Letter} :
      Remainder Phrase element word →
        Phrase place (.type 1 place element.code :: word.map Letter.deeper)

/-- A whole signature for an entry point. -/
inductive Sentence : Entry → List Letter → Prop
  | type {word : List Letter} : Phrase .elsewhere word → Sentence .type word
  | field {header : Header} {word : List Letter} :
      header.kind? = some .field → Phrase .elsewhere word →
        Sentence .field (plain [header.raw] ++ word)
  | method {word : List Letter} : MethodPhrase Phrase word → Sentence .method word

/-- Nothing in the word is refused by all decoders. -/
def Supported (word : List Letter) : Prop :=
  ∀ letter ∈ word, letter.construct? = none

/-- No type in the word starts below the level. -/
def WithinLevels (levels : Nat) (word : List Letter) : Prop :=
  ∀ letter ∈ word, ∀ level, letter.level? = some level → level ≤ levels

@[simp]
theorem supported_append_iff {head tail : List Letter} :
    Supported (head ++ tail) ↔ Supported head ∧ Supported tail :=
  List.forall_mem_append

@[simp]
theorem supported_cons_iff {letter : Letter} {word : List Letter} :
    Supported (letter :: word) ↔ letter.construct? = none ∧ Supported word :=
  List.forall_mem_cons

@[simp]
theorem supported_deeper_iff {word : List Letter} :
    Supported (word.map Letter.deeper) ↔ Supported word := by
  simp [Supported]

@[simp]
theorem supported_plain (bytes : List UInt8) : Supported (plain bytes) := by
  simp [Supported, plain, Letter.construct?]

@[simp]
theorem withinLevels_append_iff {levels : Nat} {head tail : List Letter} :
    WithinLevels levels (head ++ tail) ↔ WithinLevels levels head ∧ WithinLevels levels tail :=
  List.forall_mem_append

@[simp]
theorem withinLevels_deeper_iff {levels : Nat} {word : List Letter} :
    WithinLevels (levels + 1) (word.map Letter.deeper) ↔ WithinLevels levels word := by
  simp [WithinLevels]

@[simp]
theorem withinLevels_plain (levels : Nat) (bytes : List UInt8) :
    WithinLevels levels (plain bytes) := by
  simp [WithinLevels, plain, Letter.level?]

/-- Typed references and marks before variable arguments have nothing after them. -/
theorem Remainder.element_ne {item : Place → List Letter → Prop} {element : ElementType}
    {word : List Letter} (hremainder : Remainder item element word) :
    element ≠ .typedReference ∧ element ≠ .sentinel := by
  cases hremainder with
  | element hmember =>
      simp only [List.mem_cons, List.not_mem_nil, or_false] at hmember
      rcases hmember with rfl | rfl | rfl | rfl <;> decide
  | array => decide
  | @named form => cases form <;> decide
  | index hmember =>
      simp only [List.mem_cons, List.not_mem_nil, or_false] at hmember
      rcases hmember with rfl | rfl <;> decide
  | genericInstance => decide
  | functionPointer => decide
  | modified hmember =>
      simp only [List.mem_cons, List.not_mem_nil, or_false] at hmember
      rcases hmember with rfl | rfl <;> decide

theorem ElementType.code_injective : Function.Injective ElementType.code := by
  intro first second hcode
  have hfound := congrArg ElementType.ofCode? hcode
  rw [ElementType.ofCode?_code, ElementType.ofCode?_code] at hfound
  exact Option.some.inj hfound

theorem Remainder.construct?_eq_none {item : Place → List Letter → Prop} {place : Place}
    {element : ElementType} {word : List Letter} (hremainder : Remainder item element word) :
    (Letter.type 1 place element.code).construct? = none :=
  if_neg (ElementType.code_injective.ne hremainder.element_ne.1)

/-- No type starts with the mark before variable arguments. -/
theorem Phrase.exists_eq_cons {place : Place} {word : List Letter} (hword : Phrase place word) :
    ∃ lead rest, word = .type 1 place lead :: rest ∧ lead ≠ ElementType.sentinel.code := by
  cases hword with
  | primitive code => exact ⟨_, _, rfl, by cases code <;> decide⟩
  | typedReference => exact ⟨_, _, rfl, by decide⟩
  | composite hremainder =>
      exact ⟨_, _, rfl, ElementType.code_injective.ne hremainder.element_ne.2⟩

/-! ## Annotations of encodings -/

/-- The bytes have an annotation in the language, without anything that is refused. -/
def Annotated (language : List Letter → Prop) (bytes : List UInt8) : Prop :=
  ∃ word, language word ∧ bytesOf word = bytes ∧ Supported word

section

variable {item : TypeTree → List UInt8 → Prop}

theorem annotated_sequence {language : List Letter → Prop} {trees : List TypeTree}
    {bytes : List UInt8} (hitem : ∀ tree bytes, item tree bytes → Annotated language bytes)
    (hsequence : Sequence item trees bytes) :
    Annotated (Repeated language trees.length) bytes := by
  induction hsequence with
  | nil => exact ⟨[], .none, rfl, List.forall_mem_nil _⟩
  | cons hhead _ ih =>
      obtain ⟨head, hheadWord, rfl, hheadSupported⟩ := hitem _ _ hhead
      obtain ⟨tail, htailWord, rfl, htailSupported⟩ := ih
      exact ⟨head ++ tail, .more hheadWord htailWord, bytesOf_append head tail,
        supported_append_iff.mpr ⟨hheadSupported, htailSupported⟩⟩

variable (hitem : ∀ tree bytes, item tree bytes → ∀ place, Annotated (Phrase place) bytes)

include hitem

theorem annotated_method {signature : MethodSignature TypeTree} {bytes : List UInt8}
    (hmethod : MethodForm item signature bytes) : Annotated (MethodPhrase Phrase) bytes := by
  obtain ⟨hhead, hreturned, hlisted⟩ := hmethod
  obtain ⟨returned, hreturnedWord, rfl, hreturnedSupported⟩ := hitem _ _ hreturned .elsewhere
  have hparameter (tree : TypeTree) (bytes : List UInt8) (htree : item tree bytes) :
      Annotated (ParameterPhrase Phrase) bytes := by
    obtain ⟨word, hword, hbytes, hsupported⟩ := hitem tree bytes htree .parameter
    exact ⟨word, .unmarked hword, hbytes, hsupported⟩
  obtain ⟨listed, hlistedWord, rfl, hlistedSupported⟩ := annotated_sequence hparameter hlisted
  refine ⟨_, .mk hhead hreturnedWord hlistedWord, ?_, ?_⟩
  · simp
  · simp [hreturnedSupported, hlistedSupported]

theorem annotated_composite {element : ElementType} {tree : TypeTree} {bytes : List UInt8}
    (hform : CompositeForm item element tree bytes) :
    Annotated (Remainder Phrase element) bytes := by
  have helement {part : TypeTree} {bytes : List UInt8} (hpart : item part bytes)
      (hmember : element ∈ [.pointer, .vector, .byReference, .pinned]) :
      Annotated (Remainder Phrase element) bytes := by
    obtain ⟨word, hword, hbytes, hsupported⟩ := hitem part bytes hpart .elsewhere
    exact ⟨word, .element hmember hword, hbytes, hsupported⟩
  have hmodified {modifier : Production TypeTree} {part : TypeTree} {name bytes : List UInt8}
      (hname : HandleForm .classType modifier name) (hpart : item part bytes)
      (hmember : element ∈ [.requiredModifier, .optionalModifier]) :
      Annotated (Remainder Phrase element) (name ++ bytes) := by
    obtain ⟨word, hword, rfl, hsupported⟩ := hitem part bytes hpart .elsewhere
    refine ⟨_, .modified hmember hname hword, ?_, ?_⟩
    · simp
    · simp [hsupported]
  have hplain {element : ElementType} {bytes : List UInt8}
      (hremainder : Remainder Phrase element (plain bytes)) :
      Annotated (Remainder Phrase element) bytes :=
    ⟨plain bytes, hremainder, bytesOf_plain bytes, supported_plain bytes⟩
  have hnamed {form : NamedForm} {production : Production TypeTree} {name : List UInt8}
      (hname : HandleForm form production name) :
      Annotated (Remainder Phrase form.element) name :=
    hplain (.named hname)
  cases hform with
  | pointer hpart => exact helement hpart (by simp)
  | vector hpart => exact helement hpart (by simp)
  | byReference hpart => exact helement hpart (by simp)
  | pinned hpart => exact helement hpart (by simp)
  | array hpart hshape =>
      obtain ⟨word, hword, rfl, hsupported⟩ := hitem _ _ hpart .elsewhere
      refine ⟨_, .array hword hshape, ?_, ?_⟩
      · simp
      · simp [hsupported]
  | classType hname => exact hnamed hname
  | valueType hname => exact hnamed hname
  | typeVariable hindex => exact hplain (.index (by simp) hindex)
  | methodVariable hindex => exact hplain (.index (by simp) hindex)
  | genericInstance hname hcount hlisted =>
      have hargument (tree : TypeTree) (bytes : List UInt8) (htree : item tree bytes) :=
        hitem tree bytes htree .elsewhere
      obtain ⟨listed, hlistedWord, rfl, hsupported⟩ := annotated_sequence hargument hlisted
      refine ⟨_, .genericInstance hname hcount hlistedWord, ?_, ?_⟩
      · simp
      · simp [hsupported]
  | functionPointer hmethod =>
      obtain ⟨word, hword, hbytes, hsupported⟩ := annotated_method hitem hmethod
      exact ⟨word, .functionPointer hword, hbytes, hsupported⟩
  | requiredModifier hname hpart => exact hmodified hname hpart (by simp)
  | optionalModifier hname hpart => exact hmodified hname hpart (by simp)

end

/-- Every encoding of a type has an annotation in every place. -/
theorem annotated_of_encodes {tree : TypeTree} {bytes : List UInt8}
    (hencodes : Encodes tree bytes) (place : Place) : Annotated (Phrase place) bytes := by
  obtain ⟨levels, hnesting⟩ : ∃ levels, tree.nesting ≤ levels := ⟨_, Nat.le_refl _⟩
  induction levels generalizing tree bytes place with
  | zero => exact absurd tree.nesting_pos (by omega)
  | succ levels ih =>
      -- The parts are taken to be encodings that fit into one level less.
      have hform := typeForm_and_iff.mpr
        ⟨encodes_iff.mp hencodes, TypeTree.nesting_le_iff.mp hnesting⟩
      rcases hform with code | hform
      · refine ⟨_, .primitive code, rfl, ?_⟩
        cases code <;> simp [Supported, Letter.construct?] <;> decide
      · have hparts (part : TypeTree) (bytes : List UInt8)
            (hpart : Encodes part bytes ∧ part.nesting ≤ levels) (place : Place) :
            Annotated (Phrase place) bytes :=
          ih hpart.1 place hpart.2
        obtain ⟨word, hword, rfl, hsupported⟩ := annotated_composite hparts hform
        refine ⟨_, .composite hword, ?_, ?_⟩
        · simp [Letter.byte]
        · simp [hword.construct?_eq_none, hsupported]

/-- Every encoding of a whole signature has an annotation. -/
theorem annotated_of_entryForm {signature : Entry} {answer : Answer TypeTree}
    {blob : List UInt8} (hform : EntryForm signature answer blob) :
    Annotated (Sentence signature) blob := by
  cases hform with
  | type hencodes =>
      obtain ⟨word, hword, hbytes, hsupported⟩ := annotated_of_encodes hencodes .elsewhere
      exact ⟨word, .type hword, hbytes, hsupported⟩
  | field hfield =>
      obtain ⟨hkind, hencodes⟩ := hfield
      obtain ⟨word, hword, rfl, hsupported⟩ := annotated_of_encodes hencodes .elsewhere
      refine ⟨_, .field hkind hword, ?_, ?_⟩
      · simp
      · simp [hsupported]
  | method hmethod =>
      obtain ⟨word, hword, hbytes, hsupported⟩ :=
        annotated_method (fun _ _ => annotated_of_encodes) hmethod
      exact ⟨word, .method hword, hbytes, hsupported⟩

end TypeProjection.Signature

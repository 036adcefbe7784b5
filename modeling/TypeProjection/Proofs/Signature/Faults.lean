import TypeProjection.Proofs.Signature.Simulation

/-!
# What errors are about

An error names an offset.  The bytes around it tell what is wrong there: those
that the step passed before the offset, those from the offset to the place where
the step stopped, and those that it left unread.  This file states, error by
error and without regard to the decoder, what these bytes have to be.
-/

namespace TypeProjection.Signature

open TypeProjection.Metadata

/-! ## Openings -/

/-- The beginning of a method signature, up to where one of its types starts. -/
inductive MethodOpening : List UInt8 → Prop
  | mk {header : Header} {genericArity : UInt32} {parameters : Nat}
      {types : List TypeTree} {head listed : List UInt8} :
      MethodHead header genericArity parameters head → Sequence Encodes types listed →
      types.length ≤ parameters →
        MethodOpening (head ++ listed)

/-- The beginning of a type, up to where one of the types inside it starts. -/
inductive TypeOpening : List UInt8 → Prop
  | element {element : ElementType} :
      element ∈ [.pointer, .vector, .byReference, .pinned, .array] →
        TypeOpening [element.code]
  | argument {form : NamedForm} {generic : Production TypeTree} {count : Nat}
      {arguments : List TypeTree} {name counted listed : List UInt8} :
      HandleForm form generic name → IntegerForm count counted →
      Sequence Encodes arguments listed → arguments.length < count →
        TypeOpening (ElementType.genericInstance.code :: form.element.code ::
          (name ++ (counted ++ listed)))
  | method {bytes : List UInt8} :
      MethodOpening bytes → TypeOpening (ElementType.functionPointer.code :: bytes)
  | unmodified {element : ElementType} {modifier : Production TypeTree}
      {name : List UInt8} :
      element ∈ [.requiredModifier, .optionalModifier] →
      HandleForm .classType modifier name → TypeOpening (element.code :: name)

/-- The bytes open that many types, one inside the other, and complete none of them. -/
inductive Opens : Nat → List UInt8 → Prop
  | none : Opens 0 []
  | more {levels : Nat} {head bytes : List UInt8} :
      TypeOpening head → Opens levels bytes → Opens (levels + 1) (head ++ bytes)

/-- The bytes open that many types inside a field signature. -/
inductive FieldOpens (levels : Nat) : List UInt8 → Prop
  | mk {header : Header} {bytes : List UInt8} :
      header.kind? = some .field → Opens levels bytes → FieldOpens levels (header.raw :: bytes)

/-- The bytes open that many types inside a method signature. -/
inductive MethodOpens (levels : Nat) : List UInt8 → Prop
  | mk {head bytes : List UInt8} :
      MethodOpening head → Opens levels bytes → MethodOpens levels (head ++ bytes)

/-! ## Faults -/

/-- The dimensions of an array, up to where they turn out to be invalid. -/
inductive InvalidDimensions : List UInt8 → Prop
  | rank {bytes : List UInt8} : IntegerForm 0 bytes → InvalidDimensions bytes
  | sizes {rank count : Nat} {ranked counted : List UInt8} :
      1 ≤ rank → IntegerForm rank ranked → IntegerForm count counted → rank < count →
        InvalidDimensions (ranked ++ counted)
  | lowerBounds {rank count : Nat} {sizes : List UInt32}
      {ranked sized counted : List UInt8} :
      1 ≤ rank → IntegerForm rank ranked → sizes.length ≤ rank →
      CountedForm UnsignedForm sizes sized → IntegerForm count counted → rank < count →
        InvalidDimensions (ranked ++ (sized ++ counted))

/-- No type starts with the byte. -/
def StartsNone (byte : UInt8) : Prop :=
  ∀ tree bytes, ¬ Encodes tree (byte :: bytes)

/-- What an error of the grammar of types says of the bytes that were passed before
its offset, of those from there to the place where the decoder stopped, and of those
that were left unread.  Nothing was opened too deep unless `deep` says so of the
bytes passed before. -/
inductive TypeFault (deep : List UInt8 → Prop) :
    List UInt8 → List UInt8 → List UInt8 → SignatureError → Prop
  | unexpectedEnd {offset : Nat} {passed : List UInt8} :
      TypeFault deep passed [] [] (.malformed offset .unexpectedEnd)
  | invalidCompressedInteger {offset : Nat} {passed rest : List UInt8} {byte : UInt8} :
      0xE0 ≤ byte →
        TypeFault deep passed [byte] rest (.malformed offset .invalidCompressedInteger)
  | unknownElementType {offset : Nat} {passed rest : List UInt8} {byte : UInt8} :
      StartsNone byte →
        TypeFault deep passed [byte] rest (.malformed offset (.unknownElementType byte))
  | unknownForm {offset : Nat} {passed rest : List UInt8} {byte : UInt8} :
      byte ≠ ElementType.classType.code → byte ≠ ElementType.valueType.code →
        TypeFault deep (passed ++ [ElementType.genericInstance.code]) [byte] rest
          (.malformed offset (.unknownElementType byte))
  | invalidCodedIndex {offset : Nat} {passed bytes rest : List UInt8} {coded : UInt32} :
      UnsignedForm coded bytes →
      coded &&& 3 = 3 ∨ coded >>> 2 = 0 ∨ maxRow < coded >>> 2 →
        TypeFault deep passed bytes rest (.malformed offset (.invalidCodedIndex coded))
  | unexpectedHeader {offset : Nat} {passed rest : List UInt8} {header : Header} :
      header.kind? ≠ some .method →
        TypeFault deep (passed ++ [ElementType.functionPointer.code]) [header.raw] rest
          (.malformed offset (.unexpectedHeader header.raw))
  | invalidDimensions {offset : Nat} {passed bytes rest : List UInt8} :
      InvalidDimensions bytes →
        TypeFault deep passed bytes rest (.malformed offset .invalidDimensions)
  | nestingTooDeep {offset : Nat} {passed rest : List UInt8} :
      deep passed → TypeFault deep passed [] rest (.malformed offset .nestingTooDeep)
  | typedReference {offset : Nat} {passed rest : List UInt8} :
      TypeFault deep passed [ElementType.typedReference.code] rest
        (.unsupported offset .typedReference)
  | sentinel {offset : Nat} {passed rest : List UInt8} :
      TypeFault deep passed [] (ElementType.sentinel.code :: rest)
        (.unsupported offset .sentinel)

/-- What can be wrong with a number or the dimensions of an array. -/
abbrev ReadFault := TypeFault fun _ => False

/-- What an error says of the bytes around it where a header of the given kind is
required. -/
inductive HeadedFault (kind : HeaderKind) (deep : List UInt8 → Prop) :
    List UInt8 → List UInt8 → List UInt8 → SignatureError → Prop
  | header {offset : Nat} {rest : List UInt8} {header : Header} :
      header.kind? ≠ some kind →
        HeadedFault kind deep [] [header.raw] rest
          (.malformed offset (.unexpectedHeader header.raw))
  | types {passed bytes rest : List UInt8} {error : SignatureError} :
      TypeFault deep passed bytes rest error →
        HeadedFault kind deep passed bytes rest error

/-- A whole signature that is not nested too deeply. -/
inductive SignatureForm : Entry → List UInt8 → Prop
  | type {tree : TypeTree} {bytes : List UInt8} :
      Encodes tree bytes → tree.nesting ≤ maxNesting → SignatureForm .type bytes
  | field {tree : TypeTree} {bytes : List UInt8} :
      FieldForm Encodes tree bytes → tree.nesting ≤ maxNesting → SignatureForm .field bytes
  | method {signature : MethodSignature TypeTree} {bytes : List UInt8} :
      MethodForm Encodes signature bytes →
      (∀ part ∈ signature.types, part.nesting ≤ maxNesting) → SignatureForm .method bytes

/-- What an error of a step says of the bytes that the step passed before the offset,
of those from there to the place where it stopped, and of those that it left
unread. -/
inductive StepFault {τ : Type} (builder : Builder τ) :
    Step → List UInt8 → List UInt8 → List UInt8 → SignatureError → Prop
  | type {passed bytes rest : List UInt8} {error : SignatureError} :
      TypeFault (Opens maxNesting) passed bytes rest error →
        StepFault builder (.decode .type) passed bytes rest error
  | field {passed bytes rest : List UInt8} {error : SignatureError} :
      HeadedFault .field (FieldOpens maxNesting) passed bytes rest error →
        StepFault builder (.decode .field) passed bytes rest error
  | method {passed bytes rest : List UInt8} {error : SignatureError} :
      HeadedFault .method (MethodOpens maxNesting) passed bytes rest error →
        StepFault builder (.decode .method) passed bytes rest error
  | declined {offset : Nat} {signature : Entry} {passed bytes rest : List UInt8}
      {production : OptionalProduction TypeTree} :
      ¬ builder.Accepts (.optional (production.map builder.interpret)) →
      Encodes (.node (.optional production)) bytes →
        StepFault builder (.decode signature) passed bytes rest
          (.unsupported offset production.construct)
  | declinedModifier {offset : Nat} {signature : Entry} {passed bytes rest : List UInt8}
      {mark : UInt8} {production : OptionalProduction TypeTree} :
      ¬ builder.Accepts (.optional (production.map builder.interpret)) →
      mark = ElementType.requiredModifier.code ∨ mark = ElementType.optionalModifier.code →
      HandleForm .classType (.optional production) bytes →
        StepFault builder (.decode signature) (passed ++ [mark]) bytes rest
          (.unsupported offset production.construct)
  | trailingBytes {offset : Nat} {signature : Entry} {passed rest : List UInt8} :
      SignatureForm signature passed → rest ≠ [] →
        StepFault builder (.decode signature) passed [] rest
          (.malformed offset (.trailingBytes rest.length))
  | unfinished {offset : Nat} {rest : List UInt8} :
      rest ≠ [] →
        StepFault builder .finish [] [] rest (.malformed offset (.trailingBytes rest.length))

/-- A computation from `origin` to `after` failed with an error whose offset lies
between them and which describes the bytes there. -/
def Pinpoints (describes : List UInt8 → List UInt8 → List UInt8 → SignatureError → Prop)
    (origin : Cursor) (error : SignatureError) (after : Cursor) : Prop :=
  ∃ passed bytes place, origin.Passes passed place ∧ place.Passes bytes after ∧
    error.offset = place.offset ∧ describes passed bytes after.rest error

end TypeProjection.Signature

import TypeProjection.Proofs.Signature.IntegerForm
import TypeProjection.Signature.Decoder

/-!
# The grammar of types

A tree keeps all productions of a type.  This file states which bytes write
which tree, production by production and without regard to how they are read,
and how deep the types of a tree stand inside one another.

The forms of a production leave open how the parts are written, so that the same
rules serve the whole grammar and the trees up to some depth.
-/

namespace TypeProjection.Signature

open TypeProjection.Metadata

/-! ## Trees -/

/-- A type with all its productions kept. -/
inductive TypeTree where
  | node (production : Production TypeTree)

/-- The builder that accepts every production and keeps it. -/
def Builder.tree : Builder TypeTree where
  core production := .node (.core production)
  optional production := .ok (.node (.optional production))

@[simp]
theorem Builder.build_tree (production : Production TypeTree) :
    Builder.tree.build production = .ok (.node production) := by
  cases production <;> rfl

namespace TypeTree

variable {τ : Type} (f : Production τ → τ)

mutual

/-- Computes a value for a tree, each production from the values of its parts. -/
def fold : TypeTree → τ
  | node (.core (.primitive code)) => f (.core (.primitive code))
  | node (.core (.definition handle form)) => f (.core (.definition handle form))
  | node (.core (.reference handle form)) => f (.core (.reference handle form))
  | node (.core (.array element dimensions)) =>
      f (.core (.array element.fold dimensions))
  | node (.core (.pointer element)) => f (.core (.pointer element.fold))
  | node (.optional (.vector element)) => f (.optional (.vector element.fold))
  | node (.optional (.specification handle form)) =>
      f (.optional (.specification handle form))
  | node (.optional (.byReference element)) => f (.optional (.byReference element.fold))
  | node (.optional (.functionPointer ⟨header, arity, returnType, parameters⟩)) =>
      f (.optional (.functionPointer
        ⟨header, arity, returnType.fold, foldAll parameters⟩))
  | node (.optional (.genericInstance generic arguments)) =>
      f (.optional (.genericInstance generic.fold (foldAll arguments)))
  | node (.optional (.typeVariable index)) => f (.optional (.typeVariable index))
  | node (.optional (.methodVariable index)) => f (.optional (.methodVariable index))
  | node (.optional (.modified modifier unmodified isRequired)) =>
      f (.optional (.modified modifier.fold unmodified.fold isRequired))
  | node (.optional (.pinned element)) => f (.optional (.pinned element.fold))

def foldAll : List TypeTree → List τ
  | [] => []
  | tree :: trees => tree.fold :: foldAll trees

end

theorem foldAll_eq_map (trees : List TypeTree) : foldAll f trees = trees.map (fold f) := by
  induction trees with
  | nil => rfl
  | cons tree trees ih => rw [foldAll, ih, List.map_cons]

/-- The value of a node comes from its production over the values of the parts. -/
theorem fold_node (production : Production TypeTree) :
    fold f (.node production) = f (production.map (fold f)) := by
  rcases production with production | production <;> cases production <;>
    simp only [fold, foldAll_eq_map, Production.map, CoreProduction.map,
      OptionalProduction.map, MethodSignature.map]

end TypeTree

/-! ## Nesting -/

/-- The parts of a production that take a level of their own. -/
def CoreProduction.inner {τ : Type} : CoreProduction τ → List τ
  | primitive _ => []
  | definition _ _ => []
  | reference _ _ => []
  | array element _ => [element]
  | pointer element => [element]

/-- The parts of a production that take a level of their own.  The name of a
generic type and a modifier take none. -/
def OptionalProduction.inner {τ : Type} : OptionalProduction τ → List τ
  | vector element => [element]
  | specification _ _ => []
  | byReference element => [element]
  | functionPointer signature => signature.types
  | genericInstance _ arguments => arguments
  | typeVariable _ => []
  | methodVariable _ => []
  | modified _ unmodified _ => [unmodified]
  | pinned element => [element]

def Production.inner {τ : Type} : Production τ → List τ
  | core production => production.inner
  | optional production => production.inner

theorem Production.inner_map {τ σ : Type} (f : τ → σ) (production : Production τ) :
    (production.map f).inner = production.inner.map f := by
  rcases production with production | production <;> cases production <;> rfl

namespace TypeTree

/-- How many types stand inside one another: a leaf is one, and a composite one
more than the deepest of its parts. -/
def nesting : TypeTree → Nat :=
  fold fun production => 1 + production.inner.foldr max 0

def inner : TypeTree → List TypeTree
  | node production => production.inner

theorem foldr_max_le_iff {depths : List Nat} {limit : Nat} :
    depths.foldr max 0 ≤ limit ↔ ∀ depth ∈ depths, depth ≤ limit := by
  induction depths with
  | nil => simp
  | cons depth depths ih =>
      rw [List.foldr_cons, Nat.max_le, ih, List.forall_mem_cons]

/-- A tree fits into one more level than all its parts do. -/
theorem nesting_le_iff {tree : TypeTree} {levels : Nat} :
    tree.nesting ≤ levels + 1 ↔ ∀ part ∈ tree.inner, part.nesting ≤ levels := by
  obtain ⟨production⟩ := tree
  rw [nesting]
  rw [fold_node, Production.inner_map, Nat.add_comm, Nat.add_le_add_iff_right,
    foldr_max_le_iff, List.forall_mem_map]
  rfl

theorem nesting_pos (tree : TypeTree) : 0 < tree.nesting := by
  obtain ⟨production⟩ := tree
  rw [nesting]
  rw [fold_node]
  omega

end TypeTree

/-! ## Forms -/

def NamedForm.element : NamedForm → ElementType
  | classType => .classType
  | valueType => .valueType

def codedIndex (row : UInt32) (tag : Nat) : Nat :=
  row.toNat <<< 2 ||| tag

/-- The coded index that names a type; its row is neither nil nor too large. -/
inductive CodedName {τ : Type} (form : NamedForm) : Production τ → Nat → Prop
  | definition {row : UInt32} : 1 ≤ row → row ≤ maxRow →
      CodedName form (.core (.definition ⟨row⟩ form)) (codedIndex row 0)
  | reference {row : UInt32} : 1 ≤ row → row ≤ maxRow →
      CodedName form (.core (.reference ⟨row⟩ form)) (codedIndex row 1)
  | specification {row : UInt32} : 1 ≤ row → row ≤ maxRow →
      CodedName form (.optional (.specification ⟨row⟩ form)) (codedIndex row 2)

/-- Bytes that name a type. -/
def HandleForm {τ : Type} (form : NamedForm) (production : Production τ)
    (bytes : List UInt8) : Prop :=
  ∃ index, CodedName form production index ∧ IntegerForm index bytes

/-- A count and as many items. -/
inductive CountedForm {α : Type} (item : α → List UInt8 → Prop) :
    List α → List UInt8 → Prop
  | mk {values : List α} {count items : List UInt8} :
      IntegerForm values.length count → Sequence item values items →
        CountedForm item values (count ++ items)

/-- The dimensions of an array: the rank, the sizes and the lower bounds, of which
there are no more than the rank. -/
inductive DimensionsForm : Dimensions → List UInt8 → Prop
  | mk {dimensions : Dimensions} {rank sizes lowerBounds : List UInt8} :
      1 ≤ dimensions.rank →
      dimensions.sizes.length ≤ dimensions.rank.toNat →
      dimensions.lowerBounds.length ≤ dimensions.rank.toNat →
      UnsignedForm dimensions.rank rank →
      CountedForm UnsignedForm dimensions.sizes sizes →
      CountedForm SignedForm dimensions.lowerBounds lowerBounds →
        DimensionsForm dimensions (rank ++ (sizes ++ lowerBounds))

/-- The beginning of a method signature: the header, the number of generic
parameters if the header announces one, and the number of parameters. -/
inductive MethodHead : Header → UInt32 → Nat → List UInt8 → Prop
  | plain {header : Header} {parameters : Nat} {count : List UInt8} :
      header.kind? = some .method → header.isGeneric = false →
      IntegerForm parameters count →
        MethodHead header 0 parameters (header.raw :: count)
  | generic {header : Header} {genericArity : UInt32} {parameters : Nat}
      {arity count : List UInt8} :
      header.kind? = some .method → header.isGeneric = true →
      UnsignedForm genericArity arity → IntegerForm parameters count →
        MethodHead header genericArity parameters (header.raw :: (arity ++ count))

section

variable (item : TypeTree → List UInt8 → Prop)

/-- A method signature whose types are written by `item`. -/
inductive MethodForm : MethodSignature TypeTree → List UInt8 → Prop
  | mk {header : Header} {genericArity : UInt32} {returnType : TypeTree}
      {parameters : List TypeTree} {head returned listed : List UInt8} :
      MethodHead header genericArity parameters.length head →
      item returnType returned → Sequence item parameters listed →
        MethodForm ⟨header, genericArity, returnType, parameters⟩
          (head ++ (returned ++ listed))

/-- What follows the byte of an element type, where the parts of the type are
written by `item`. -/
inductive CompositeForm : ElementType → TypeTree → List UInt8 → Prop
  | pointer {element : TypeTree} {bytes : List UInt8} :
      item element bytes →
        CompositeForm .pointer (.node (.core (.pointer element))) bytes
  | vector {element : TypeTree} {bytes : List UInt8} :
      item element bytes →
        CompositeForm .vector (.node (.optional (.vector element))) bytes
  | byReference {element : TypeTree} {bytes : List UInt8} :
      item element bytes →
        CompositeForm .byReference (.node (.optional (.byReference element))) bytes
  | pinned {element : TypeTree} {bytes : List UInt8} :
      item element bytes →
        CompositeForm .pinned (.node (.optional (.pinned element))) bytes
  | array {element : TypeTree} {dimensions : Dimensions} {bytes shape : List UInt8} :
      item element bytes → DimensionsForm dimensions shape →
        CompositeForm .array (.node (.core (.array element dimensions))) (bytes ++ shape)
  | classType {production : Production TypeTree} {bytes : List UInt8} :
      HandleForm .classType production bytes →
        CompositeForm .classType (.node production) bytes
  | valueType {production : Production TypeTree} {bytes : List UInt8} :
      HandleForm .valueType production bytes →
        CompositeForm .valueType (.node production) bytes
  | typeVariable {index : UInt32} {bytes : List UInt8} :
      UnsignedForm index bytes →
        CompositeForm .typeVariable (.node (.optional (.typeVariable index))) bytes
  | methodVariable {index : UInt32} {bytes : List UInt8} :
      UnsignedForm index bytes →
        CompositeForm .methodVariable (.node (.optional (.methodVariable index))) bytes
  | genericInstance {form : NamedForm} {generic : Production TypeTree}
      {arguments : List TypeTree} {name count listed : List UInt8} :
      HandleForm form generic name → IntegerForm arguments.length count →
      Sequence item arguments listed →
        CompositeForm .genericInstance
          (.node (.optional (.genericInstance (.node generic) arguments)))
          (form.element.code :: (name ++ (count ++ listed)))
  | functionPointer {signature : MethodSignature TypeTree} {bytes : List UInt8} :
      MethodForm item signature bytes →
        CompositeForm .functionPointer (.node (.optional (.functionPointer signature))) bytes
  | requiredModifier {modifier : Production TypeTree} {unmodified : TypeTree}
      {name bytes : List UInt8} :
      HandleForm .classType modifier name → item unmodified bytes →
        CompositeForm .requiredModifier
          (.node (.optional (.modified (.node modifier) unmodified true))) (name ++ bytes)
  | optionalModifier {modifier : Production TypeTree} {unmodified : TypeTree}
      {name bytes : List UInt8} :
      HandleForm .classType modifier name → item unmodified bytes →
        CompositeForm .optionalModifier
          (.node (.optional (.modified (.node modifier) unmodified false))) (name ++ bytes)

/-- A type whose parts are written by `item`. -/
inductive TypeForm : TypeTree → List UInt8 → Prop
  | primitive (code : Primitive) :
      TypeForm (.node (.core (.primitive code))) [code.code]
  | composite {element : ElementType} {tree : TypeTree} {bytes : List UInt8} :
      CompositeForm item element tree bytes → TypeForm tree (element.code :: bytes)

end

/-- The bytes are an encoding of the tree. -/
inductive Encodes : TypeTree → List UInt8 → Prop
  | of {tree : TypeTree} {bytes : List UInt8} : TypeForm Encodes tree bytes → Encodes tree bytes

/-- A field signature: its header, and a type that is written by `item`. -/
inductive FieldForm (item : TypeTree → List UInt8 → Prop) : TypeTree → List UInt8 → Prop
  | mk {header : Header} {tree : TypeTree} {bytes : List UInt8} :
      header.kind? = some .field → item tree bytes →
        FieldForm item tree (header.raw :: bytes)

theorem encodes_iff {tree : TypeTree} {bytes : List UInt8} :
    Encodes tree bytes ↔ TypeForm Encodes tree bytes :=
  ⟨fun ⟨hform⟩ => hform, .of⟩

/-! ## Forms read backwards -/

section

variable {item : TypeTree → List UInt8 → Prop} {tree : TypeTree} {bytes : List UInt8}

/-- The element types with a single part behind them, the production that is made of the part
and how the part is written. -/
inductive SinglePart (item : TypeTree → List UInt8 → Prop) :
    (α : Type) → ElementType → (α → Production TypeTree) → (α → List UInt8 → Prop) → Prop
  | pointer : SinglePart item TypeTree .pointer (fun element => .core (.pointer element)) item
  | vector : SinglePart item TypeTree .vector (fun element => .optional (.vector element)) item
  | byReference :
      SinglePart item TypeTree .byReference (fun element => .optional (.byReference element)) item
  | pinned : SinglePart item TypeTree .pinned (fun element => .optional (.pinned element)) item
  | classType :
      SinglePart item (Production TypeTree) .classType (fun production => production)
        (HandleForm .classType)
  | valueType :
      SinglePart item (Production TypeTree) .valueType (fun production => production)
        (HandleForm .valueType)
  | typeVariable :
      SinglePart item UInt32 .typeVariable (fun index => .optional (.typeVariable index))
        UnsignedForm
  | methodVariable :
      SinglePart item UInt32 .methodVariable (fun index => .optional (.methodVariable index))
        UnsignedForm
  | functionPointer :
      SinglePart item (MethodSignature TypeTree) .functionPointer
        (fun signature => .optional (.functionPointer signature)) (MethodForm item)

/-- What follows an element type with a single part is that part alone. -/
theorem SinglePart.compositeForm_iff {α : Type} {element : ElementType}
    {wrap : α → Production TypeTree} {language : α → List UInt8 → Prop}
    (hpart : SinglePart item α element wrap language) :
    CompositeForm item element tree bytes ↔
      ∃ value, tree = .node (wrap value) ∧ language value bytes := by
  constructor
  · intro hform
    cases hpart <;> cases hform
    all_goals exact ⟨_, rfl, by assumption⟩
  · rintro ⟨value, rfl, hvalue⟩
    cases hpart with
    | pointer => exact .pointer hvalue
    | vector => exact .vector hvalue
    | byReference => exact .byReference hvalue
    | pinned => exact .pinned hvalue
    | classType => exact .classType hvalue
    | valueType => exact .valueType hvalue
    | typeVariable => exact .typeVariable hvalue
    | methodVariable => exact .methodVariable hvalue
    | functionPointer => exact .functionPointer hvalue

def ElementType.ofModifier (isRequired : Bool) : ElementType :=
  if isRequired then .requiredModifier else .optionalModifier

/-- What follows the byte of a modifier, required or not. -/
def ModifiedForm (item : TypeTree → List UInt8 → Prop) (isRequired : Bool)
    (tree : TypeTree) (bytes : List UInt8) : Prop :=
  ∃ modifier unmodified name rest,
    tree = .node (.optional (.modified (.node modifier) unmodified isRequired)) ∧
      bytes = name ++ rest ∧ HandleForm .classType modifier name ∧ item unmodified rest

theorem compositeForm_ofModifier_iff (isRequired : Bool) :
    CompositeForm item (.ofModifier isRequired) tree bytes ↔
      ModifiedForm item isRequired tree bytes := by
  constructor
  · intro hform
    cases isRequired <;> cases hform
    all_goals exact ⟨_, _, _, _, rfl, rfl, by assumption, by assumption⟩
  · rintro ⟨modifier, unmodified, name, rest, rfl, rfl, hname, hitem⟩
    cases isRequired with
    | false => exact .optionalModifier hname hitem
    | true => exact .requiredModifier hname hitem

end

/-! ## Conditions on the parts -/

section

variable {α : Type} {item : α → List UInt8 → Prop} {condition : α → Prop}

theorem sequence_and_iff {values : List α} {bytes : List UInt8} :
    Sequence (fun value bytes => item value bytes ∧ condition value) values bytes ↔
      Sequence item values bytes ∧ ∀ value ∈ values, condition value := by
  constructor
  · intro hsequence
    induction hsequence with
    | nil => exact ⟨.nil, List.forall_mem_nil _⟩
    | cons hitem _ ih =>
        exact ⟨.cons hitem.1 ih.1, List.forall_mem_cons.mpr ⟨hitem.2, ih.2⟩⟩
  · rintro ⟨hsequence, hvalues⟩
    induction hsequence with
    | nil => exact .nil
    | cons hitem _ ih =>
        have hvalues := List.forall_mem_cons.mp hvalues
        exact .cons ⟨hitem, hvalues.1⟩ (ih hvalues.2)

end

section

variable {item : TypeTree → List UInt8 → Prop} {condition : TypeTree → Prop}

theorem methodForm_and_iff {signature : MethodSignature TypeTree} {bytes : List UInt8} :
    MethodForm (fun part bytes => item part bytes ∧ condition part) signature bytes ↔
      MethodForm item signature bytes ∧ ∀ part ∈ signature.types, condition part := by
  refine ⟨fun hform => ?_, fun ⟨hform, hparts⟩ => ?_⟩
  · obtain ⟨hhead, hreturned, hlisted⟩ := hform
    rw [sequence_and_iff] at hlisted
    exact ⟨.mk hhead hreturned.1 hlisted.1,
      List.forall_mem_cons.mpr ⟨hreturned.2, hlisted.2⟩⟩
  · obtain ⟨hhead, hreturned, hlisted⟩ := hform
    have hparts := List.forall_mem_cons.mp hparts
    exact .mk hhead ⟨hreturned, hparts.1⟩ (sequence_and_iff.mpr ⟨hlisted, hparts.2⟩)

theorem HandleForm.inner_eq_nil {form : NamedForm} {production : Production TypeTree}
    {bytes : List UInt8} (hform : HandleForm form production bytes) :
    production.inner = [] := by
  obtain ⟨index, hname, -⟩ := hform
  cases hname <;> rfl

theorem compositeForm_and_iff {element : ElementType} {tree : TypeTree}
    {bytes : List UInt8} :
    CompositeForm (fun part bytes => item part bytes ∧ condition part) element tree bytes ↔
      CompositeForm item element tree bytes ∧ ∀ part ∈ tree.inner, condition part := by
  refine ⟨fun hform => ?_, fun ⟨hform, hparts⟩ => ?_⟩
  · cases hform with
    | pointer hitem => exact ⟨.pointer hitem.1, List.forall_mem_singleton.mpr hitem.2⟩
    | vector hitem => exact ⟨.vector hitem.1, List.forall_mem_singleton.mpr hitem.2⟩
    | byReference hitem =>
        exact ⟨.byReference hitem.1, List.forall_mem_singleton.mpr hitem.2⟩
    | pinned hitem => exact ⟨.pinned hitem.1, List.forall_mem_singleton.mpr hitem.2⟩
    | array hitem hshape =>
        exact ⟨.array hitem.1 hshape, List.forall_mem_singleton.mpr hitem.2⟩
    | classType hname => exact ⟨.classType hname, by simp [TypeTree.inner, hname.inner_eq_nil]⟩
    | valueType hname => exact ⟨.valueType hname, by simp [TypeTree.inner, hname.inner_eq_nil]⟩
    | typeVariable hindex => exact ⟨.typeVariable hindex, List.forall_mem_nil _⟩
    | methodVariable hindex => exact ⟨.methodVariable hindex, List.forall_mem_nil _⟩
    | genericInstance hname hcount hlisted =>
        have hlisted := sequence_and_iff.mp hlisted
        exact ⟨.genericInstance hname hcount hlisted.1, hlisted.2⟩
    | functionPointer hmethod =>
        have hmethod := methodForm_and_iff.mp hmethod
        exact ⟨.functionPointer hmethod.1, hmethod.2⟩
    | requiredModifier hname hitem =>
        exact ⟨.requiredModifier hname hitem.1, List.forall_mem_singleton.mpr hitem.2⟩
    | optionalModifier hname hitem =>
        exact ⟨.optionalModifier hname hitem.1, List.forall_mem_singleton.mpr hitem.2⟩
  · cases hform with
    | pointer hitem => exact .pointer ⟨hitem, List.forall_mem_singleton.mp hparts⟩
    | vector hitem => exact .vector ⟨hitem, List.forall_mem_singleton.mp hparts⟩
    | byReference hitem => exact .byReference ⟨hitem, List.forall_mem_singleton.mp hparts⟩
    | pinned hitem => exact .pinned ⟨hitem, List.forall_mem_singleton.mp hparts⟩
    | array hitem hshape => exact .array ⟨hitem, List.forall_mem_singleton.mp hparts⟩ hshape
    | classType hname => exact .classType hname
    | valueType hname => exact .valueType hname
    | typeVariable hindex => exact .typeVariable hindex
    | methodVariable hindex => exact .methodVariable hindex
    | genericInstance hname hcount hlisted =>
        exact .genericInstance hname hcount (sequence_and_iff.mpr ⟨hlisted, hparts⟩)
    | functionPointer hmethod =>
        exact .functionPointer (methodForm_and_iff.mpr ⟨hmethod, hparts⟩)
    | requiredModifier hname hitem =>
        exact .requiredModifier hname ⟨hitem, List.forall_mem_singleton.mp hparts⟩
    | optionalModifier hname hitem =>
        exact .optionalModifier hname ⟨hitem, List.forall_mem_singleton.mp hparts⟩

/-- A condition on the parts can be asked where they are written or of the tree. -/
theorem typeForm_and_iff {tree : TypeTree} {bytes : List UInt8} :
    TypeForm (fun part bytes => item part bytes ∧ condition part) tree bytes ↔
      TypeForm item tree bytes ∧ ∀ part ∈ tree.inner, condition part := by
  refine ⟨fun hform => ?_, fun ⟨hform, hparts⟩ => ?_⟩
  · rcases hform with code | hform
    · exact ⟨.primitive code, List.forall_mem_nil _⟩
    · have hform := compositeForm_and_iff.mp hform
      exact ⟨.composite hform.1, hform.2⟩
  · rcases hform with code | hform
    · exact .primitive code
    · exact .composite (compositeForm_and_iff.mpr ⟨hform, hparts⟩)

theorem fieldForm_and_iff {tree : TypeTree} {bytes : List UInt8} :
    FieldForm (fun part bytes => item part bytes ∧ condition part) tree bytes ↔
      FieldForm item tree bytes ∧ condition tree := by
  refine ⟨fun hform => ?_, fun ⟨hform, htree⟩ => ?_⟩
  · obtain ⟨hkind, hitem⟩ := hform
    exact ⟨.mk hkind hitem.1, hitem.2⟩
  · obtain ⟨hkind, hitem⟩ := hform
    exact .mk hkind ⟨hitem, htree⟩

end

end TypeProjection.Signature

import TypeProjection.Metadata.Handle
import TypeProjection.Signature.Construct
import TypeProjection.Signature.Dimensions
import TypeProjection.Signature.Method
import TypeProjection.Signature.Primitive

/-!
# Builders

A signature is decoded into whatever type a builder makes of it.  Each
production of the grammar arrives at the builder with its parts already built.
Five productions are represented by every builder.  The others are optional:
a builder may decline them, and unless it says otherwise it does.
-/

namespace TypeProjection.Signature

open TypeProjection.Metadata

/-- Whether a type named by a handle is introduced as a class or as a value
type. -/
inductive NamedForm where
  | classType
  | valueType
  deriving DecidableEq, Repr

/-- The productions that every builder represents. -/
inductive CoreProduction (τ : Type) where
  | primitive (code : Primitive)
  | definition (handle : DefinitionHandle) (form : NamedForm)
  | reference (handle : ReferenceHandle) (form : NamedForm)
  | array (element : τ) (dimensions : Dimensions)
  | pointer (element : τ)
  deriving DecidableEq, Repr

/-- The productions that a builder may decline. -/
inductive OptionalProduction (τ : Type) where
  | vector (element : τ)
  | specification (handle : SpecificationHandle) (form : NamedForm)
  | byReference (element : τ)
  | functionPointer (signature : MethodSignature τ)
  | genericInstance (generic : τ) (arguments : List τ)
  | typeVariable (index : UInt32)
  | methodVariable (index : UInt32)
  | modified (modifier unmodified : τ) (isRequired : Bool)
  | pinned (element : τ)
  deriving DecidableEq, Repr

/-- A production of the grammar of types, with its parts built. -/
inductive Production (τ : Type) where
  | core (production : CoreProduction τ)
  | optional (production : OptionalProduction τ)
  deriving DecidableEq, Repr

def OptionalProduction.construct {τ : Type} : OptionalProduction τ → Construct
  | vector _ => .vector
  | specification _ _ => .specification
  | byReference _ => .byReference
  | functionPointer _ => .functionPointer
  | genericInstance _ _ => .genericInstance
  | typeVariable _ => .typeVariable
  | methodVariable _ => .methodVariable
  | modified _ _ _ => .modified
  | pinned _ => .pinned

def CoreProduction.map {τ σ : Type} (f : τ → σ) : CoreProduction τ → CoreProduction σ
  | primitive code => primitive code
  | definition handle form => definition handle form
  | reference handle form => reference handle form
  | array element dimensions => array (f element) dimensions
  | pointer element => pointer (f element)

def OptionalProduction.map {τ σ : Type} (f : τ → σ) :
    OptionalProduction τ → OptionalProduction σ
  | vector element => vector (f element)
  | specification handle form => specification handle form
  | byReference element => byReference (f element)
  | functionPointer signature => functionPointer (signature.map f)
  | genericInstance generic arguments => genericInstance (f generic) (arguments.map f)
  | typeVariable index => typeVariable index
  | methodVariable index => methodVariable index
  | modified modifier unmodified isRequired =>
      modified (f modifier) (f unmodified) isRequired
  | pinned element => pinned (f element)

def Production.map {τ σ : Type} (f : τ → σ) : Production τ → Production σ
  | core production => core (production.map f)
  | optional production => optional (production.map f)

@[simp]
theorem OptionalProduction.construct_map {τ σ : Type} (f : τ → σ)
    (production : OptionalProduction τ) :
    (production.map f).construct = production.construct := by
  cases production <;> rfl

/-- A way to build types of `τ` from the productions of a signature. -/
structure Builder (τ : Type) where
  /-- Builds a production that every builder represents. -/
  core : CoreProduction τ → τ
  /-- Builds a further production, or names the construct that it declines. -/
  optional : OptionalProduction τ → Except Construct τ :=
    fun production => .error production.construct

namespace Builder

variable {τ : Type}

def build (builder : Builder τ) : Production τ → Except Construct τ
  | .core production => .ok (builder.core production)
  | .optional production => builder.optional production

/-- The builder that also declines every construct of a given class. -/
def declining (builder : Builder τ) (declined : Construct → Bool) : Builder τ where
  core := builder.core
  optional production :=
    if declined production.construct then .error production.construct
    else builder.optional production

end Builder

end TypeProjection.Signature

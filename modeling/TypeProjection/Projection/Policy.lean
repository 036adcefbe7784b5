import TypeProjection.Flags

/-!
# Projection policies

A policy is a set of independent choices on how types are projected.  Bits
without a meaning are kept.
-/

namespace TypeProjection

inductive Choice where
  /-- Pointer-sized integers are written as native-width integers. -/
  | nativeWidth
  /-- Substitutes that need marshaling are used. -/
  | marshaledSubstitutes
  /-- Interfaces are written as managed references, not as pointers. -/
  | managedInterfaces
  /-- Names of nested types are qualified. -/
  | qualifiedNames
  deriving DecidableEq, Repr

namespace Choice

/-- All choices, in the order of their bits. -/
def all : List Choice :=
  [nativeWidth, marshaledSubstitutes, managedInterfaces, qualifiedNames]

def bit : Choice → BitVec 8
  | nativeWidth => 1
  | marshaledSubstitutes => 2
  | managedInterfaces => 4
  | qualifiedNames => 8

def position : Choice → Nat
  | nativeWidth => 0
  | marshaledSubstitutes => 1
  | managedInterfaces => 2
  | qualifiedNames => 3

/-- The persisted name of a choice. -/
def name : Choice → String
  | nativeWidth => "PREFER_NATIVE_WIDTH_INTEGERS"
  | marshaledSubstitutes => "PREFER_MARSHALED_SUBSTITUTES"
  | managedInterfaces => "PROJECT_INTERFACES_AS_OPAQUE_HANDLES"
  | qualifiedNames => "QUALIFY_NESTED_NAMES"

theorem bit_eq (choice : Choice) : choice.bit = BitVec.twoPow 8 choice.position := by
  cases choice <;> rfl

theorem position_lt (choice : Choice) : choice.position < 8 := by
  cases choice <;> decide

theorem position_inj {choice other : Choice} :
    choice.position = other.position ↔ choice = other := by
  cases choice <;> cases other <;> decide

end Choice

/-- A set of choices. -/
structure Policy where
  bits : BitVec 8
  deriving DecidableEq, Repr

namespace Policy

/-- The policy that makes none of the choices. -/
def default : Policy := ⟨0⟩

def vocabulary : FlagVocabulary 8 where
  title := "RenderPolicy"
  flags := Choice.all.map fun choice => (choice.name, choice.bit)

/-- The policy with the given bits, if each of them has a meaning. -/
def ofBits? (bits : BitVec 8) : Option Policy :=
  if vocabulary.unnamed bits = 0 then some ⟨bits⟩ else none

/-- The policy with those of the given bits that have a meaning. -/
def truncate (bits : BitVec 8) : Policy :=
  ⟨bits &&& vocabulary.all⟩

def makes (policy : Policy) (choice : Choice) : Bool :=
  policy.bits &&& choice.bit == choice.bit

def set (policy : Policy) (choice : Choice) (enabled : Bool) : Policy :=
  ⟨if enabled then policy.bits ||| choice.bit else policy.bits &&& ~~~choice.bit⟩

/-- The text of a policy for people. -/
def describe (policy : Policy) : String :=
  vocabulary.describe policy.bits

theorem makes_eq (policy : Policy) (choice : Choice) :
    policy.makes choice = policy.bits.getLsbD choice.position := by
  rw [makes, choice.bit_eq, FlagVocabulary.and_twoPow_beq choice.position_lt]

/-- The choices that a policy makes are named in the order of their bits. -/
theorem names_eq (policy : Policy) :
    vocabulary.names policy.bits = (Choice.all.filter policy.makes).map Choice.name := by
  rw [FlagVocabulary.names, vocabulary, List.filter_map, List.map_map]
  rfl

@[simp]
theorem makes_set_self (policy : Policy) (choice : Choice) (enabled : Bool) :
    (policy.set choice enabled).makes choice = enabled := by
  rw [makes_eq, set]
  cases enabled <;> simp [choice.bit_eq, choice.position_lt]

/-- Setting one choice leaves the others as they are. -/
theorem makes_set_of_ne (policy : Policy) {choice other : Choice} (hother : other ≠ choice)
    (enabled : Bool) : (policy.set choice enabled).makes other = policy.makes other := by
  have hposition : other.position ≠ choice.position :=
    fun hsame => hother (Choice.position_inj.mp hsame)
  rw [makes_eq, makes_eq, set]
  cases enabled <;> simp [choice.bit_eq, hposition, other.position_lt]

end Policy

end TypeProjection

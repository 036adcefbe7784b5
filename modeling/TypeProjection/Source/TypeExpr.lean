import TypeProjection.Source.Keyword
import TypeProjection.Source.DottedName

/-!
# Type expressions

A type as it is written in the generated source: a keyword or a name inside any
number of pointers and arrays, such as `int`, `Outer.Inner*` or `byte[4]`.
Every node carries marks for later stages, which never change its text.
-/

namespace TypeProjection.Source

/-- Out-of-band marks on a node; bits without a meaning are kept. -/
structure Marks where
  bits : BitVec 8
  deriving DecidableEq, Repr

namespace Marks

def none : Marks := ⟨0⟩

/-- The type is a managed reference, not a structure reached through pointers. -/
def managedReference : Marks := ⟨1⟩

def union (left right : Marks) : Marks :=
  ⟨left.bits ||| right.bits⟩

def isManagedReference (marks : Marks) : Bool :=
  marks.bits &&& managedReference.bits == managedReference.bits

end Marks

/-- A type as it is written in the generated source. -/
inductive TypeExpr where
  | keyword (marks : Marks) (word : Keyword)
  | named (marks : Marks) (name : DottedName)
  | pointer (marks : Marks) (pointee : TypeExpr)
  | array (marks : Marks) (element : TypeExpr) (sizes : List UInt32)
  deriving DecidableEq, Repr

namespace TypeExpr

def ofKeyword (word : Keyword) : TypeExpr :=
  .keyword .none word

def ofName (name : DottedName) : TypeExpr :=
  .named .none name

def identifier (name : String) : TypeExpr :=
  ofName (.simple name)

/-- The name that a text reads as, without marks. -/
def ofText (text : String) : TypeExpr :=
  ofName (.parse text)

def pointerTo (pointee : TypeExpr) : TypeExpr :=
  .pointer .none pointee

def arrayOf (element : TypeExpr) (sizes : List UInt32) : TypeExpr :=
  .array .none element sizes

/-- The marks of the outermost node. -/
def marks : TypeExpr → Marks
  | keyword marks _ => marks
  | named marks _ => marks
  | pointer marks _ => marks
  | array marks _ _ => marks

def withMarks (added : Marks) : TypeExpr → TypeExpr
  | keyword marks word => keyword (marks.union added) word
  | named marks name => named (marks.union added) name
  | pointer marks pointee => pointer (marks.union added) pointee
  | array marks element sizes => array (marks.union added) element sizes

/-- Whether the outermost node is marked as a managed reference. -/
def isManagedReference (type : TypeExpr) : Bool :=
  type.marks.isManagedReference

def pointee? : TypeExpr → Option TypeExpr
  | pointer _ pointee => some pointee
  | _ => none

/-- The number of pointers before the first node that is none. -/
def pointerDepth : TypeExpr → Nat
  | pointer _ pointee => pointee.pointerDepth + 1
  | _ => 0

def text : TypeExpr → String
  | keyword _ word => word.text
  | named _ name => name.text
  | pointer _ pointee => pointee.text ++ "*"
  | array _ element sizes =>
      element.text ++ "[" ++
        ", ".intercalate (sizes.map fun size => toString size.toNat) ++ "]"

end TypeExpr

end TypeProjection.Source

import Std.Data.ExtTreeMap
import TypeProjection.Source.TypeExpr

/-!
# Substitutes

Substitutes map simple names of metadata types to type expressions that are
written in their place.  A type with a substitute is never generated.  Two maps
are equal when they answer every name alike.
-/

namespace TypeProjection

open TypeProjection.Source

/-- A map from simple names to substitutes. -/
structure Substitutes where
  entries : Std.ExtTreeMap String TypeExpr
  deriving DecidableEq

namespace Substitutes

def empty : Substitutes :=
  ⟨∅⟩

/-- Adds an entry, in place of one with the same name. -/
def insert (substitutes : Substitutes) (name : String) (substitute : TypeExpr) :
    Substitutes :=
  ⟨substitutes.entries.insert name substitute⟩

/-- The map of some entries; of several with the same name the last counts. -/
def ofList (entries : List (String × TypeExpr)) : Substitutes :=
  entries.foldl (fun substitutes (name, substitute) => substitutes.insert name substitute) empty

def get? (substitutes : Substitutes) (name : String) : Option TypeExpr :=
  substitutes.entries[name]?

def contains (substitutes : Substitutes) (name : String) : Bool :=
  substitutes.entries.contains name

theorem contains_eq_isSome (substitutes : Substitutes) (name : String) :
    substitutes.contains name = (substitutes.get? name).isSome :=
  Std.ExtTreeMap.contains_eq_isSome_getElem?

def size (substitutes : Substitutes) : Nat :=
  substitutes.entries.size

def isEmpty (substitutes : Substitutes) : Bool :=
  substitutes.entries.isEmpty

/-- The names with a substitute, in ascending order by code points. -/
def names (substitutes : Substitutes) : List String :=
  substitutes.entries.keys

/-- The entries in ascending order of their names, by code points. -/
def toList (substitutes : Substitutes) : List (String × TypeExpr) :=
  substitutes.entries.toList

/-- Structures with a counterpart in the platform library that has the same
layout. -/
def builtin : Substitutes :=
  ofList
    [("Guid", .ofText "global::System.Guid"),
      ("DECIMAL", .ofKeyword .decimal),
      ("LARGE_INTEGER", .ofKeyword .long),
      ("OLD_LARGE_INTEGER", .ofKeyword .long),
      ("ULARGE_INTEGER", .ofKeyword .ulong),
      ("FILETIME",
        .ofText "global::System.Runtime.InteropServices.ComTypes.FILETIME"),
      ("OVERLAPPED", .ofText "global::System.Threading.NativeOverlapped"),
      ("POINT", .ofText "global::System.Drawing.Point"),
      ("POINTF", .ofText "global::System.Drawing.PointF")]

/-- Substitutes that hold only where values are marshaled. -/
def marshaled : Substitutes :=
  ofList
    [("BOOL", .ofKeyword .bool),
      ("VARIANT_BOOL", .ofKeyword .bool),
      ("BSTR", .ofKeyword .string)]

end Substitutes

end TypeProjection

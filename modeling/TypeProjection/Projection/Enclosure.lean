import TypeProjection.Metadata.Image
import TypeProjection.Source.DottedName

/-!
# Enclosing types

Nested types link to the type that encloses them.  Climbing these links from a
type either reaches an outermost type or ends at a link that names no row or
leads back to a type already passed.  The climb itself is kept as a value, so
that every row it looks up can be counted.

Climbing ends on every image: the handles passed are all different, and there
are only as many handles as there are row numbers.
-/

namespace TypeProjection

open TypeProjection.Metadata TypeProjection.Source

/-- What climbing reads from a row: its name and the handle that encloses it. -/
structure Link (kind : Kind) where
  name : String
  outer? : Option (TypedHandle kind)

/-- A climb from a type through the types that enclose it. -/
inductive Enclosure (kind : Kind) where
  /-- The handle names no row. -/
  | unresolved (handle : TypedHandle kind)
  /-- The handle was passed before and is not looked up again. -/
  | repeated (handle : TypedHandle kind)
  /-- The type is not nested. -/
  | outermost (handle : TypedHandle kind) (name : String)
  /-- The type is nested in the type from which the climb goes on. -/
  | inside (handle : TypedHandle kind) (name : String) (outer : Enclosure kind)
  deriving DecidableEq, Repr

/-- Different handles into one table are no more than there are row numbers. -/
theorem Metadata.TypedHandle.length_le_of_nodup {kind : Kind}
    {handles : List (TypedHandle kind)} (distinct : handles.Nodup) :
    handles.length ≤ UInt32.size := by
  have rows : (handles.map fun handle => handle.row.toNat).Nodup := by
    refine List.Pairwise.map _ (fun left right different same => different ?_) distinct
    cases left
    cases right
    simpa using UInt32.toNat.inj same
  have bounded : (handles.map fun handle => handle.row.toNat) ⊆
      List.range UInt32.size := by
    intro row member
    obtain ⟨handle, -, rfl⟩ := List.mem_map.1 member
    exact List.mem_range.2 handle.row.toNat_lt_size
  simpa only [List.length_map, List.length_range] using
    rows.length_le_of_subset bounded

namespace Enclosure

variable {kind : Kind}

/-- Climbs from a handle, given the handles passed before. -/
def climb (link? : TypedHandle kind → Option (Link kind))
    (passed : List (TypedHandle kind)) (distinct : passed.Nodup)
    (handle : TypedHandle kind) : Enclosure kind :=
  if fresh : handle ∈ passed then .repeated handle
  else
    match link? handle with
    | none => .unresolved handle
    | some ⟨name, none⟩ => .outermost handle name
    | some ⟨name, some outer⟩ =>
        .inside handle name
          (climb link? (handle :: passed) (List.nodup_cons.2 ⟨fresh, distinct⟩) outer)
termination_by UInt32.size - passed.length
decreasing_by
  have bound := TypedHandle.length_le_of_nodup (List.nodup_cons.2 ⟨fresh, distinct⟩)
  simp only [List.length_cons] at bound ⊢
  omega

def of (link? : TypedHandle kind → Option (Link kind)) (handle : TypedHandle kind) :
    Enclosure kind :=
  climb link? [] List.nodup_nil handle

/-- The qualified name of the type where the climb starts, or the handle at which
the climb fails. -/
def name? : Enclosure kind → Except (TypedHandle kind) DottedName
  | unresolved handle => .error handle
  | repeated handle => .error handle
  | outermost _ name => .ok (.simple name)
  | inside _ name outer => outer.name?.map fun enclosing => enclosing.member name

def lookups : Enclosure kind → List (TypedHandle kind)
  | unresolved handle => [handle]
  | repeated _ => []
  | outermost handle _ => [handle]
  | inside handle _ outer => handle :: outer.lookups

end Enclosure

namespace Metadata.Image

/-- The link from the row of a handle to the handle that encloses it: of a definition
the one that declares it, of a reference its scope if that is a reference too. -/
def link? (image : Image) : (kind : Kind) → TypedHandle kind → Option (Link kind)
  | .typeDefinition, handle =>
      (image.definition? handle).map fun row => ⟨row.name, row.declaring?⟩
  | .typeReference, handle =>
      (image.reference? handle).map fun row => ⟨row.name, row.enclosing?⟩
  | _, _ => none

end Metadata.Image

end TypeProjection

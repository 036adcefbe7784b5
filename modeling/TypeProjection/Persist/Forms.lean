import TypeProjection.Metadata.Attributes
import TypeProjection.Metadata.Handle
import TypeProjection.Persist.Value
import TypeProjection.Projection.Policy
import TypeProjection.Projection.Request
import TypeProjection.Signature.Dimensions
import TypeProjection.Signature.Primitive

/-!
# Persisted forms

How the values of the domain are stored.  Flag sets are texts, kinds and
primitive types are names, typed handles are plain row numbers, and requests,
handles and dimensions are records.  Reading a handle takes its row as it is,
also beyond 24 bits.
-/

namespace TypeProjection.Persist

open TypeProjection.Metadata TypeProjection.Signature

instance : Persistent TypeAttributes where
  store attributes := .text (TypeAttributes.vocabulary.write attributes.bits)
  load? value := do
    return ⟨← TypeAttributes.vocabulary.read? (← value.text?)⟩

instance : Persistent Policy where
  store policy := .text (Policy.vocabulary.write policy.bits)
  load? value := do
    return ⟨← Policy.vocabulary.read? (← value.text?)⟩

instance : Persistent Kind where
  store kind := .text kind.name
  load? value := do Kind.ofName? (← value.alternative?)

instance : Persistent Primitive where
  store primitive := .text primitive.name
  load? value := do Primitive.ofName? (← value.alternative?)

instance {kind : Kind} : Persistent (TypedHandle kind) where
  store handle := Persistent.store handle.row
  load? value := do
    return ⟨← Persistent.load? value⟩

instance : Persistent Handle where
  store handle :=
    .record [("kind", Persistent.store handle.kind), ("row", Persistent.store handle.row)]
  load? value := do
    let [kind, row] ← value.fields? ["kind", "row"] | none
    return ⟨← Persistent.load? kind, ← Persistent.load? row⟩

instance : Persistent Request where
  store
    | .definition handle => .record [("Definition", Persistent.store handle)]
    | .reference handle => .record [("Reference", Persistent.store handle)]
  load?
    | .record [("Definition", handle)] => (Persistent.load? handle).map .definition
    | .record [("Reference", handle)] => (Persistent.load? handle).map .reference
    | _ => none

instance : Persistent Dimensions where
  store dimensions :=
    .record
      [("rank", Persistent.store dimensions.rank), ("sizes", Persistent.store dimensions.sizes),
        ("lower_bounds", Persistent.store dimensions.lowerBounds)]
  load? value := do
    let [rank, sizes, lowerBounds] ← value.fields? ["rank", "sizes", "lower_bounds"]
      | none
    return ⟨← Persistent.load? rank, ← Persistent.load? sizes,
      ← Persistent.load? lowerBounds⟩

end TypeProjection.Persist

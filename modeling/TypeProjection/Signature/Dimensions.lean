/-!
# Dimensions

The dimensions of a general array, of which only the number is always known.
-/

namespace TypeProjection.Signature

/-- The dimensions of a general array.  Sizes and lower bounds are listed in the
order of the dimensions and may stop before the last one; what is not listed is
not specified. -/
structure Dimensions where
  rank : UInt32
  sizes : List UInt32
  lowerBounds : List Int32
  deriving DecidableEq, Repr

namespace Dimensions

/-- Dimensions that all have a size and no lower bound.  The rank stays at the largest
number where there are more sizes than it can count. -/
def fixed (sizes : List UInt32) : Dimensions :=
  ⟨.ofNatClamp sizes.length, sizes, []⟩

/-- The dimensions as text, one for each unit of the rank: the size where one is
listed and a question mark elsewhere. -/
def texts (dimensions : Dimensions) : List String :=
  (dimensions.sizes.map fun size => toString size.toNat).take dimensions.rank.toNat ++
    List.replicate (dimensions.rank.toNat - dimensions.sizes.length) "?"

end Dimensions

end TypeProjection.Signature

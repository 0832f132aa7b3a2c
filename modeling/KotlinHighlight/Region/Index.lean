import KotlinHighlight.Region
import KotlinHighlight.Sorted.UpperBound

/-! # Region lookup

The regions of one text with their starts, so that the region around a position is found by halving.
-/

namespace KotlinHighlight

/-- The regions of a text in order, and where each of them starts. -/
structure RegionIndex where
  regions : Array Region
  starts : Array Nat := regions.map (·.start)

namespace RegionIndex

def ofText (text : Text) : RegionIndex where
  regions := (Region.scan text).toArray

/-- The region that holds a position. -/
def regionAt? (index : RegionIndex) (position : Int) : Option Region :=
  match Sorted.upperBound index.starts position with
  | 0 => none
  | count + 1 => index.regions[count]?.filter fun region => position < region.stop

def inComment (index : RegionIndex) (position : Int) : Bool :=
  (index.regionAt? position).any (·.kind.isComment)

def inString (index : RegionIndex) (position : Int) : Bool :=
  (index.regionAt? position).any (!·.kind.isComment)

def contains (index : RegionIndex) (position : Int) : Bool :=
  (index.regionAt? position).isSome

end RegionIndex

end KotlinHighlight

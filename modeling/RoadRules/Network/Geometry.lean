import RoadRules.Fault
import RoadRules.Number.Quantity
import RoadRules.Policy
import RoadRules.Way.Basic

set_option autoImplicit false

/-! # Distances between nodes

A network measures its segments either in the plane or along great circles of the earth. The rules
of a network only need some distance of each kind; `haversine` and `hypotenuse` are the ones that
the program measures with. To find the node nearest to a point, the distance in the plane is taken
with every step rounded, `Geometry.steppedRoot`: two nodes that a correctly rounded distance cannot
tell apart may differ in it by the last bit. Of nodes at one distance the index of the nodes finds
the one that it comes to first; no rule of a network depends on which one that is. -/

namespace RoadRules

/-- A type of quantities in which the distance between two nodes can be measured. -/
class Geometry (α : Type) extends Quantity α where
  straight : Node α → Node α → α
  /-- The length of the great circle in metres, if it is defined. -/
  greatCircle : Node α → Node α → Except Fault α
  /-- The distance in the plane of a node from the point with the given coordinates, by which nodes
  are found. -/
  distanceFrom : α → α → Node α → α
  /-- Whether the index of the nodes comes to a node before another. -/
  isIndexedBefore : Node α → Node α → Bool

namespace Geometry

/-- The distance between two nodes under a metric. -/
def distance {α : Type} [Geometry α] (metric : Metric) (a b : Node α) : Except Fault α :=
  match metric with
  | .haversine => greatCircle a b
  | .euclidean => .ok (straight a b)

/-! ## Great circles in floating point -/

def earthRadius : Float := 6371000.0

/-- An angle in degrees as an angle in radians. -/
def radians (degrees : Float) : Float := degrees * (3.141592653589793 / 180.0)

/-- A value of a function that is defined at every finite number; at an infinite one there is
none. -/
def periodic (f : Float → Float) (x : Float) : Except Fault Float :=
  if x.isInf then .error .outsideDomain else .ok (f x)

/-- The square of a number, by the power function. -/
def square (x : Float) : Float := x ^ (2.0 : Float)

/-- The square root of a number that is not negative. -/
def squareRoot (x : Float) : Except Fault Float :=
  if x < 0.0 then .error .outsideDomain else .ok x.sqrt

/-- The arc sine of a number between minus one and one. -/
def arcSine (x : Float) : Except Fault Float :=
  if x.abs > 1.0 then .error .outsideDomain else .ok x.asin

/-- The length in metres of the great circle between two points given by latitude and longitude in
degrees, by the haversine formula. -/
def haversine (latitude₁ longitude₁ latitude₂ longitude₂ : Float) : Except Fault Float := do
  let φ₁ := radians latitude₁
  let φ₂ := radians latitude₂
  let half₁ ← periodic Float.sin ((φ₂ - φ₁) / 2.0)
  let cos₁ ← periodic Float.cos φ₁
  let cos₂ ← periodic Float.cos φ₂
  let half₂ ← periodic Float.sin (radians (longitude₂ - longitude₁) / 2.0)
  let root ← squareRoot (square half₁ + cos₁ * cos₂ * square half₂)
  let angle ← arcSine root
  return 2.0 * earthRadius * angle

/-! ## Looking for a node in floating point -/

/-- The root of the sum of two squares, rounded at each step; infinite where that is not a
number. -/
def steppedRoot (x y : Float) : Float :=
  let root := (x * x + y * y).sqrt
  if root.isNaN then 1.0 / 0.0 else root

/-- Whether a node is to the south of another, or as far south and to the west of it. A
sort-tile-recursive tree packs nodes in this order into a leaf, after it has parted them by their
first coordinate; a tree of up to ten nodes is one leaf. -/
def isSouthWest (a b : Node Float) : Bool :=
  decide (a.y < b.y) || (!decide (b.y < a.y) && decide (a.x < b.x))

end Geometry

instance : Geometry Float where
  straight a b := hypotenuse (b.x - a.x) (b.y - a.y)
  greatCircle a b := Geometry.haversine a.y a.x b.y b.x
  distanceFrom x y n := Geometry.steppedRoot (n.x - x) (n.y - y)
  isIndexedBefore := Geometry.isSouthWest

end RoadRules

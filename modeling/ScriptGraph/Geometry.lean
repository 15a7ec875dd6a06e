import ScriptGraph.Binary

/-!
# Plane geometry

Vectors and rectangles over any kind of numbers with the operations of `Scalar`. Editors compute in single precision;
the rational numbers are the exact counterpart.
-/

namespace ScriptGraph

/-- Numbers to measure the plane with. -/
class Scalar (S : Type) extends Add S, Sub S, Mul S, Div S, Neg S where
  ofNat : Nat → S
  le : S → S → Bool
  lt : S → S → Bool
  isFinite : S → Bool

instance : Scalar Float32 where
  ofNat := Float32.ofNat
  le x y := decide (x ≤ y)
  lt x y := decide (x < y)
  isFinite x := x.isFinite

/-- A point or a displacement. -/
structure Vec2 (S : Type) where
  x : S
  y : S
  deriving DecidableEq

namespace Vec2

variable {S : Type} [Scalar S]

/-- The origin. -/
def zero : Vec2 S := ⟨Scalar.ofNat 0, Scalar.ofNat 0⟩

instance : Add (Vec2 S) := ⟨fun a b => ⟨a.x + b.x, a.y + b.y⟩⟩

instance : Sub (Vec2 S) := ⟨fun a b => ⟨a.x - b.x, a.y - b.y⟩⟩

instance : Neg (Vec2 S) := ⟨fun a => ⟨-a.x, -a.y⟩⟩

/-- A vector times a number. -/
def scale (a : Vec2 S) (k : S) : Vec2 S := ⟨a.x * k, a.y * k⟩

/-- A vector divided by a number. -/
def shrink (a : Vec2 S) (k : S) : Vec2 S := ⟨a.x / k, a.y / k⟩

/-- A vector divided by two. -/
def half (a : Vec2 S) : Vec2 S := a.shrink (Scalar.ofNat 2)

/-- Euclidean length. -/
def length (a : Vec2 Float32) : Float32 := (a.x * a.x + a.y * a.y).sqrt

/-- Euclidean distance. -/
def distance (a b : Vec2 Float32) : Float32 := (a - b).length

/-- Whether two vectors have equal components, as numbers: the two zeros are equal, and what is not a number is equal
to nothing. -/
def same (a b : Vec2 Float32) : Bool := a.x == b.x && a.y == b.y

end Vec2

/-- A rectangle along the axes, by its corner with the least coordinates and its size. -/
structure Rect (S : Type) where
  corner : Vec2 S
  size : Vec2 S

namespace Rect

variable {S : Type} [Scalar S]

/-- The corner with the greatest coordinates. -/
def far (r : Rect S) : Vec2 S := r.corner + r.size

/-- The rectangle with `margin` more on every side. -/
def expand (r : Rect S) (margin : S) : Rect S :=
  let both := margin * Scalar.ofNat 2
  ⟨r.corner - ⟨margin, margin⟩, r.size + ⟨both, both⟩⟩

/-- Whether a point lies inside or on the border. -/
def contains (r : Rect S) (p : Vec2 S) : Bool :=
  Scalar.le r.corner.x p.x && Scalar.le p.x r.far.x && Scalar.le r.corner.y p.y && Scalar.le p.y r.far.y

end Rect

end ScriptGraph

import SketchSolver.Scalar

/-!
# The sketch plane

Points, which also serve as vectors, and the two measures the constraints own: the distance
between two points and the angle of the vector from one to the other.

Angles are continuous: `angleBetween` answers with the representative nearest to the previous
value, so that an angle that is followed around the circle never jumps by a full turn.
-/

namespace SketchSolver

/-- A point of the plane, or the vector that leads to it. -/
@[ext]
structure Point (α : Type) where
  /-- Horizontal coordinate. -/
  x : α
  /-- Vertical coordinate. -/
  y : α
deriving Repr, Inhabited, BEq

namespace Point

variable {α : Type} [Scalar α]

instance : Add (Point α) where
  add p q := ⟨p.x + q.x, p.y + q.y⟩

instance : Sub (Point α) where
  sub p q := ⟨p.x - q.x, p.y - q.y⟩

/-- The vector stretched by a factor. -/
def scaleBy (p : Point α) (factor : α) : Point α :=
  ⟨p.x * factor, p.y * factor⟩

/-- The unit vector at an angle, counter-clockwise from the horizontal axis. -/
def ofAngle (angle : α) : Point α :=
  ⟨Scalar.cos angle, Scalar.sin angle⟩

/-- Length of the vector. -/
def length (p : Point α) : α :=
  Scalar.hypot p.x p.y

/-- Distance between two points. -/
def distance (p q : Point α) : α :=
  (p - q).length

/-- Angle of the vector from `p` to `q`, within half a turn of the horizontal axis. -/
def direction (p q : Point α) : α :=
  let d := q - p
  Scalar.atan2 d.y d.x

end Point

variable {α : Type} [Scalar α]

/-- The representative of an angle difference that is at most half a turn. -/
def wrapAngle (delta : α) : α :=
  if decide (-Scalar.pi < delta) && decide (delta ≤ Scalar.pi) then
    delta
  else
    Scalar.atan2 (Scalar.sin delta) (Scalar.cos delta)

/-- The angle of the vector from `p` to `q` that is nearest to `previous`.  Points that coincide
have no direction and leave the angle as it was. -/
def angleBetween (p q : Point α) (previous : α) : α :=
  if p.distance q < Scalar.tolerance then
    previous
  else
    previous + wrapAngle (p.direction q - previous)

end SketchSolver

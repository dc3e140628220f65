import SketchSolver.Plane

/-!
# The residual of an angle

How far a point has to move for the vector from `a` to `b` to point at an angle.  Which point may
move, and in which direction, depends on the coordinates that are known: a point with both
coordinates unknown turns about the other one, and a point with one unknown coordinate slides
along an axis until it meets the ray.  Where the ray runs along that axis, or meets the axis
behind the other point, turning takes the place of sliding.
-/

namespace SketchSolver

/-- Which of the coordinates of two points are known. -/
structure KnownCoords where
  /-- The horizontal coordinate of the first point. -/
  startX : Bool
  /-- The vertical coordinate of the first point. -/
  startY : Bool
  /-- The horizontal coordinate of the second point. -/
  endX : Bool
  /-- The vertical coordinate of the second point. -/
  endY : Bool
deriving DecidableEq, Repr

namespace AngleResidual

variable {α : Type} [Scalar α]

/-- How far `b` has to move to stand on the ray from `a` at its present distance. -/
def turnEnd (a b : Point α) (angle : α) : α :=
  b.distance (a + (Point.ofAngle angle).scaleBy (a.distance b))

/-- How far `a` has to move to see `b` at the angle, at its present distance. -/
def turnStart (a b : Point α) (angle : α) : α :=
  a.distance (b - (Point.ofAngle angle).scaleBy (a.distance b))

/-- The distance along the ray at which a coordinate has changed by `gap`, where it changes at
`slope` per unit: none if the ray runs across, or away. -/
def reach (gap slope : α) : Option α :=
  if Scalar.abs slope < Scalar.tolerance then
    none
  else if gap / slope < 0 then
    none
  else
    some (gap / slope)

/-- The least displacement of the coordinates that are not known that makes the vector from `a`
to `b` point at the angle.  If all are known, the lesser of both displacements by turning. -/
def angleResidual (a b : Point α) (angle : α) (known : KnownCoords) : α :=
  let s := Scalar.sin angle
  let c := Scalar.cos angle
  match known with
  | ⟨_, _, false, false⟩ => turnEnd a b angle
  | ⟨false, false, _, _⟩ => turnStart a b angle
  | ⟨_, _, true, false⟩ =>
    match reach (b.x - a.x) c with
    | some t => Scalar.abs (b.y - (a.y + t * s))
    | none => turnEnd a b angle
  | ⟨_, _, false, true⟩ =>
    match reach (b.y - a.y) s with
    | some t => Scalar.abs (b.x - (a.x + t * c))
    | none => turnEnd a b angle
  | ⟨true, false, true, true⟩ =>
    match reach (b.x - a.x) c with
    | some t => Scalar.abs (a.y - (b.y - t * s))
    | none => turnStart a b angle
  | ⟨false, true, true, true⟩ =>
    match reach (b.y - a.y) s with
    | some t => Scalar.abs (a.x - (b.x - t * c))
    | none => turnStart a b angle
  | ⟨true, true, true, true⟩ => Scalar.least (turnEnd a b angle) (turnStart a b angle)

end AngleResidual

end SketchSolver

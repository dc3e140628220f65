/-!
# The numbers of a sketch

The solver never says which numbers it computes with.  `Scalar` lists what it needs — the field
operations, comparisons that can be decided, and the functions of plane geometry — and asks for
no law.  What is proved from the class alone therefore holds bit for bit of machine numbers, and
what needs arithmetic to be exact is proved at an ordered field.

`Scalar.tolerance`, `Scalar.leastNormal` and `Scalar.unitGap` are the thresholds the solver shares.
-/

namespace SketchSolver

/-- What the solver asks of its numbers. -/
class Scalar (α : Type) extends
    Zero α, One α, Add α, Sub α, Mul α, Div α, Neg α, LT α, LE α, BEq α, OfScientific α where
  /-- Strict comparison can be decided. -/
  decideLt : DecidableRel (LT.lt : α → α → Prop)
  /-- Comparison can be decided. -/
  decideLe : DecidableRel (LE.le : α → α → Prop)
  /-- Absolute value. -/
  abs : α → α
  /-- Is this an ordinary number, neither infinite nor undefined? -/
  isFinite : α → Bool
  /-- Half the circumference of the unit circle. -/
  pi : α
  /-- Length of the hypotenuse over two legs. -/
  hypot : α → α → α
  /-- Sine of an angle in radians. -/
  sin : α → α
  /-- Cosine of an angle in radians. -/
  cos : α → α
  /-- Angle of the point whose ordinate and abscissa are given, in that order. -/
  atan2 : α → α → α

namespace Scalar

variable {α : Type} [Scalar α]

instance (a b : α) : Decidable (a < b) := decideLt a b

instance (a b : α) : Decidable (a ≤ b) := decideLe a b

/-- Two numbers count as equal below this difference. -/
def tolerance : α := 1e-5

/-- The least positive number that keeps full precision.  A scale below it counts as zero. -/
def leastNormal : α := 2.2250738585072014e-308

/-- The gap between one and the next number. -/
def unitGap : α := 2.220446049250313e-16

/-- Is this number undefined, hence different from itself? -/
def isUndefined (a : α) : Bool :=
  !(a == a)

/-- An undefined number; where every division has a value, just some number. -/
def undefined : α := 0 / 0

/-- The lesser of two numbers; an undefined one loses. -/
def least (a b : α) : α :=
  if isUndefined b || decide (a < b) then a else b

/-- The greater of two numbers; an undefined one loses. -/
def greatest (a b : α) : α :=
  if isUndefined a || decide (a < b) then b else a

end Scalar

end SketchSolver

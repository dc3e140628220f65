import SketchSolver.Scalar

/-!
# Double-precision numbers

The numbers of a running solver.  Arithmetic, sine, cosine and the angle of a point are those of
the machine; `hypotenuse` is computed here, because a length that overflows, underflows or loses
its last bit would move a sketch.

The squares of both legs are formed as an unevaluated sum of a leading and a trailing part
(`square`), so the sum under the root carries about twice the precision of its result.  Legs of
extreme size are scaled by a power of two first, and a leg that is too short to show is added
linearly.
-/

namespace SketchSolver

namespace Double

/-- The square of `x` as a leading part and what rounding took from it. -/
def square (x : Float) : Float × Float :=
  let c := x * 134217729
  let high := x - c + c
  let low := x - high
  let lead := x * x
  (lead, high * high - lead + 2 * high * low + low * low)

/-- The exponent field of a non-negative number. -/
def exponentField (x : Float) : Nat :=
  (x.toBits >>> 52).toNat

/-- The hypotenuse over legs with `0 ≤ short ≤ long`, in the order of their bit patterns. -/
def hypotenuseOrdered (long short : Float) : Float :=
  if exponentField short = 0x7ff then
    short
  else if exponentField long = 0x7ff || short == 0 then
    long
  else if exponentField short + 64 < exponentField long then
    long + short
  else
    let (scale, unscale) :=
      if 0x3ff + 510 < exponentField long then (Float.scaleB 1 (-700), Float.scaleB 1 700)
      else if exponentField short < 0x3ff - 450 then (Float.scaleB 1 700, Float.scaleB 1 (-700))
      else (1, 1)
    let (longLead, longRest) := square (long * scale)
    let (shortLead, shortRest) := square (short * scale)
    unscale * Float.sqrt (shortRest + longRest + shortLead + longLead)

/-- Length of the hypotenuse over two legs of either sign.  An infinite leg makes it infinite,
even beside an undefined one. -/
def hypotenuse (a b : Float) : Float :=
  let a := a.abs
  let b := b.abs
  if a.toBits < b.toBits then hypotenuseOrdered b a else hypotenuseOrdered a b

end Double

instance : Scalar Float where
  zero := 0
  one := 1
  decideLt := inferInstance
  decideLe := inferInstance
  abs := Float.abs
  isFinite := Float.isFinite
  pi := 3.141592653589793
  hypot := Double.hypotenuse
  sin := Float.sin
  cos := Float.cos
  atan2 := Float.atan2

end SketchSolver

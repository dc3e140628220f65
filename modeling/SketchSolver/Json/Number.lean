import SketchSolver.Decimal.Literal
import SketchSolver.Json

/-!
# What JSON numbers stand for

A whole number without an exponent stands for itself, as long as it fits 64 bits.  Every other
number is read as a *significand*, the digits that fit 64 bits, and a power of ten: both become
doubles, and one is multiplied or divided by the other.  Each step is rounded, so the result may
differ from the nearest double in its last digit.
-/

namespace SketchSolver

namespace JsonNumber

/-- The least number that does not fit 64 bits. -/
def wordLimit : Nat := 0x10000000000000000

/-- A significand and the power of ten it is to be multiplied with. -/
structure Scaled where
  /-- The significand, which fits 64 bits. -/
  significand : Nat
  /-- The power of ten. -/
  power : Int
deriving Repr

/-- Takes in digits in front of the point.  Once they do not fit any more, each further digit
only shifts the others. -/
def takeWhole : List Char → Nat → Scaled
  | [], n => ⟨n, 0⟩
  | d :: ds, n =>
    let next := Literal.natOfDigits [d] + 10 * n
    if next < wordLimit then takeWhole ds next else ⟨n, (d :: ds).length⟩

/-- Takes in digits behind the point, as long as they fit. -/
def takeFraction : List Char → Scaled → Scaled
  | [], s => s
  | d :: ds, s =>
    let next := Literal.natOfDigits [d] + 10 * s.significand
    if next < wordLimit then takeFraction ds ⟨next, s.power - 1⟩ else s

/-- A power of ten as a double. -/
def powerOfTen (n : Nat) : Float :=
  Binary.ofDecimal false 1 n

/-- Multiplies a double with a power of ten.  A power below the range of doubles is applied in
several steps, of which there are at most `limit`.  No answer if the result is too large. -/
def timesPower : Nat → Float → Int → Option Float
  | 0, _, _ => none
  | limit + 1, f, power =>
    if power.natAbs ≤ 308 then
      if 0 ≤ power then
        let product := f * powerOfTen power.natAbs
        if product.isInf then none else some product
      else
        some (f / powerOfTen power.natAbs)
    else if f == 0 then
      some f
    else if 0 ≤ power then
      none
    else
      timesPower limit (f / powerOfTen 308) (power + 308)

/-- The bound of 32-bit exponents. -/
def exponentLimit : Nat := 0x80000000

/-- The absolute value of a number that has a fraction, an exponent, or too many digits.  No
answer if it is too large. -/
def magnitude (n : JsonNumber) : Option Float :=
  let s := takeFraction n.fraction (takeWhole n.whole 0)
  let f := s.significand.toUInt64.toFloat
  match n.exponent with
  | none => timesPower 8 f s.power
  | some (negative, digits) =>
    let e := Literal.natOfDigits digits
    if e < exponentLimit then
      timesPower 8 f (s.power + if negative then -(e : Int) else e)
    else if s.significand ≠ 0 && !negative then
      none
    else
      some 0

/-- Is this number written without a fraction and without an exponent, and does it fit 64 bits? -/
def isWord (n : JsonNumber) : Bool :=
  n.fraction.isEmpty && n.exponent.isNone &&
    decide (Literal.natOfDigits n.whole < wordLimit)

/-- The double a number stands for.  No answer if it is too large. -/
def toFloat? (n : JsonNumber) : Option Float :=
  let f :=
    if n.isWord then some (Literal.natOfDigits n.whole).toUInt64.toFloat else n.magnitude
  f.map fun f => if n.negative then -f else f

/-- The natural number below `bound` that a number stands for, if it is written as one. -/
def toNatBelow? (bound : Nat) (n : JsonNumber) : Option Nat :=
  let value := Literal.natOfDigits n.whole
  if n.isWord && !n.negative && decide (value < bound) then some value else none

end JsonNumber

end SketchSolver

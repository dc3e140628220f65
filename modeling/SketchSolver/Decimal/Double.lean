import SketchSolver.Decimal.Ratio

/-!
# Doubles as exact numbers

A finite double is a whole number times a power of two.  `Binary.ofFloat` takes a double apart
into its sign and that number, and `Binary.nearest` finds the double nearest to an exact quotient.
-/

namespace SketchSolver

/-- What a double stands for. -/
inductive Binary where
  /-- No number at all. -/
  | undefined
  /-- Beyond all numbers, on one side. -/
  | infinite (negative : Bool)
  /-- The number `mantissa · 2 ^ exponent`, or its opposite. -/
  | finite (negative : Bool) (mantissa : Nat) (exponent : Int)
deriving DecidableEq, Repr

namespace Binary

/-- The bit that the mantissa of a double begins with, unless the exponent is the smallest.  It is
not written down; the exponent stands in its place. -/
def leadingBit : Nat := 0x10000000000000

/-- The bit that the opposite of a double has in addition. -/
def signBit : Nat := 0x8000000000000000

/-- The exponent that stands for what is no finite number. -/
def lastField : Nat := 0x7ff

/-- Takes a double apart. -/
def ofFloat (x : Float) : Binary :=
  let bits := x.toBits.toNat
  let negative := decide (signBit ≤ bits)
  let field : Nat := bits / leadingBit % (lastField + 1)
  let fraction : Nat := bits % leadingBit
  if field = lastField then
    if fraction = 0 then .infinite negative else .undefined
  else if field = 0 then
    .finite negative fraction (-1074)
  else
    .finite negative (leadingBit + fraction) ((field : Int) - 1075)

/-- The double with a given sign and the remaining bits of a number. -/
def withSign (negative : Bool) (bits : Nat) : Float :=
  Float.ofBits ((if negative then signBit else 0) + bits).toUInt64

/-- The double nearest to a quotient, or to its opposite; of two, the one with an even mantissa.
Quotients beyond the largest double become infinite. -/
def nearest (negative : Bool) (r : Ratio) : Float :=
  if r.num = 0 then
    withSign negative 0
  else
    let exponent := max (-1074) (r.exponentIn 2 - 52)
    let mantissa := (r.scale 2 (-exponent)).roundHalfEven
    let field := (exponent + 1074).toNat
    withSign negative (min (field * leadingBit + mantissa) (lastField * leadingBit))

/-- The double nearest to `digits · 10 ^ exponent`, or to its opposite.  Exponents that leave no
doubt are not computed with. -/
def ofDecimal (negative : Bool) (digits : Nat) (exponent : Int) : Float :=
  if digits = 0 then
    withSign negative 0
  else
    let leading := Ratio.countDigits 10 digits + exponent
    if 310 < leading then
      withSign negative (lastField * leadingBit)
    else if leading < -330 then
      withSign negative 0
    else
      nearest negative ((Ratio.ofNat digits).scale 10 exponent)

end Binary

end SketchSolver

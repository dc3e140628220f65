/-!
# Exact quotients

Reading and writing decimals is arithmetic on quotients of natural numbers: a double is one, and
so is a decimal.  `Ratio` is such a quotient, `roundHalfEven` its nearest natural number, and
`exponentIn` the place of its leading digit.
-/

namespace SketchSolver

/-- A quotient of natural numbers with a positive denominator. -/
structure Ratio where
  /-- Numerator. -/
  num : Nat
  /-- Denominator. -/
  den : Nat
deriving Repr

namespace Ratio

/-- A natural number. -/
def ofNat (n : Nat) : Ratio := ⟨n, 1⟩

/-- The quotient times a power of `base`. -/
def scale (r : Ratio) (base : Nat) : Int → Ratio
  | .ofNat e => ⟨r.num * base.pow e, r.den⟩
  | .negSucc e => ⟨r.num, r.den * base.pow (e + 1)⟩

/-- The whole part. -/
def floor (r : Ratio) : Nat :=
  r.num / r.den

/-- The nearest natural number; of two, the even one. -/
def roundHalfEven (r : Ratio) : Nat :=
  let whole := r.num / r.den
  let rest := r.num % r.den
  if 2 * rest < r.den then whole
  else if r.den < 2 * rest then whole + 1
  else if whole % 2 = 0 then whole
  else whole + 1

/-- Is the first quotient at most the second? -/
def le (r s : Ratio) : Bool :=
  r.num * s.den ≤ s.num * r.den

/-- Is the first quotient less than the second? -/
def lt (r s : Ratio) : Bool :=
  r.num * s.den < s.num * r.den

/-- How many digits a natural number has in base two or ten. -/
def countDigits (base n : Nat) : Nat :=
  if base = 2 then n.log2 + 1 else (Nat.toDigits base n).length

/-- The exponent of the leading digit of a positive quotient: the greatest `e` for which
`base ^ e` is not above it.  The numbers of digits of both parts leave two candidates. -/
def exponentIn (base : Nat) (r : Ratio) : Int :=
  let guess : Int := (countDigits base r.num : Int) - (countDigits base r.den : Int)
  if ((ofNat 1).scale base guess).le r then guess else guess - 1

end Ratio

end SketchSolver

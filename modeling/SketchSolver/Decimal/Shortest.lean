import SketchSolver.Decimal.Double

/-!
# Shortest decimals

A double is written with the fewest digits that read back as the same double.  The numbers that
read back form an interval around it, which reaches half way to both neighbours and contains its
ends if the mantissa is even.  For one digit, two digits and so on, the two multiples of the last
place that surround the double are tried: the first place at which one of them lies in the
interval has the fewest digits, and of two the nearer one is chosen.
-/

namespace SketchSolver

/-- What becomes of a number halfway between two decimals that would both do. -/
inductive TieBreak where
  /-- The decimal with the even last digit. -/
  | even
  /-- The greater decimal. -/
  | up
deriving DecidableEq, Repr

/-- The digits of a positive number: `digits · 10 ^ place`, where the last digit is not zero. -/
structure Digits where
  /-- All digits, as one number. -/
  digits : Nat
  /-- The exponent of the last digit. -/
  place : Int
deriving DecidableEq, Repr

namespace Digits

/-- How many digits there are. -/
def count (d : Digits) : Nat :=
  Ratio.countDigits 10 d.digits

/-- The exponent of the leading digit. -/
def exponent (d : Digits) : Int :=
  d.place + d.count - 1

/-- Drops zeros at the end, at most `limit` of them. -/
def strip : Nat → Digits → Digits
  | 0, d => d
  | limit + 1, d =>
    if d.digits % 10 = 0 then strip limit ⟨d.digits / 10, d.place + 1⟩ else d

end Digits

namespace Shortest

/-- The numbers that read back as `value`: those between the bounds, which belong to it or not. -/
structure Interval where
  /-- The double itself. -/
  value : Ratio
  /-- Half way down to its neighbour. -/
  lower : Ratio
  /-- Half way up to its neighbour. -/
  upper : Ratio
  /-- Do the bounds read back as well? -/
  closed : Bool

/-- The interval around `mantissa · 2 ^ exponent`.  Below a power of two the neighbour is half as
far, except at the smallest exponent. -/
def interval (mantissa : Nat) (exponent : Int) : Interval :=
  let quarter (n : Nat) : Ratio := (Ratio.ofNat n).scale 2 (exponent - 2)
  let step := if mantissa = Binary.leadingBit && decide (-1074 < exponent) then 1 else 2
  ⟨quarter (4 * mantissa), quarter (4 * mantissa - step), quarter (4 * mantissa + 2),
    mantissa % 2 = 0⟩

/-- Does a number read back as the value? -/
def Interval.contains (i : Interval) (r : Ratio) : Bool :=
  if i.closed then i.lower.le r && r.le i.upper else i.lower.lt r && r.lt i.upper

/-- The multiple of `10 ^ place` that reads back and is nearest to the value, if there is one. -/
def atPlace (tie : TieBreak) (i : Interval) (place : Int) : Option Nat :=
  let scaled := i.value.scale 10 (-place)
  let below := scaled.floor
  let decimal (n : Nat) : Ratio := (Ratio.ofNat n).scale 10 place
  match i.contains (decimal below), i.contains (decimal (below + 1)) with
  | true, false => some below
  | false, true => some (below + 1)
  | false, false => none
  | true, true =>
    let rest := scaled.num % scaled.den
    if 2 * rest < scaled.den then some below
    else if scaled.den < 2 * rest then some (below + 1)
    else
      match tie with
      | .even => some (if below % 2 = 0 then below else below + 1)
      | .up => some (below + 1)

/-- Tries places from the leading digit downwards, at most `limit` of them. -/
def search (tie : TieBreak) (i : Interval) : Nat → Int → Option Digits
  | 0, _ => none
  | limit + 1, place =>
    match atPlace tie i place with
    | some n => some (Digits.strip 20 ⟨n, place⟩)
    | none => search tie i limit (place - 1)

/-- The fewest digits that read back as `mantissa · 2 ^ exponent`, for a positive mantissa.
Seventeen digits are always enough. -/
def digits (tie : TieBreak) (mantissa : Nat) (exponent : Int) : Digits :=
  let i := interval mantissa exponent
  (search tie i 17 (i.value.exponentIn 10)).getD ⟨0, 0⟩

end Shortest

end SketchSolver

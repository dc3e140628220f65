import SketchSolver.Decimal.Shortest

/-!
# Layouts of decimals

How numbers are written.  A `Layout` lists the decisions that are left once the shortest digits
of a number are known, and there are two of them: `Layout.saved` for saved documents and
`Layout.plain` for messages.

Where a number of places is asked for instead, `fixed` and `scientific` round the exact value of
the double, a tie going to the even digit.
-/

namespace SketchSolver

namespace Decimal

/-- The digits of a natural number. -/
def digitText (n : Nat) : String :=
  String.ofList (Nat.toDigits 10 n)

/-- Some zeros. -/
def zeros (n : Nat) : String :=
  String.ofList (List.replicate n '0')

/-- A minus sign, or nothing. -/
def signText (negative : Bool) : String :=
  if negative then "-" else ""

/-- What is written for the doubles that are no numbers. -/
def undefinedText : String := "NaN"

/-- What is written beyond all numbers. -/
def infiniteText (negative : Bool) : String :=
  signText negative ++ "inf"

/-! ## Shortest digits -/

/-- The decisions of a notation for shortest digits. -/
structure Layout where
  /-- Up to this absolute value of the exponent below one, numbers are written out. -/
  positionalBelow : Option Nat
  /-- Up to this exponent above one, numbers are written out. -/
  positionalAbove : Option Nat
  /-- Do whole numbers that are written out end in `.0`? -/
  wholeFraction : Bool
  /-- What becomes of ties between shortest digits. -/
  tie : TieBreak

/-- Saved documents: numbers from `0.00001` up to sixteen digits before the point are written
out, with a fraction; others have a signed exponent. -/
def Layout.saved : Layout := ⟨some 5, some 15, true, .even⟩

/-- Messages: every number is written out, and a whole one without a fraction. -/
def Layout.plain : Layout := ⟨none, none, false, .up⟩

/-- Writes digits out. -/
def positional (wholeFraction : Bool) (d : Digits) : String :=
  let text := digitText d.digits
  let point := d.exponent + 1
  if 0 ≤ d.place then
    text ++ zeros d.place.toNat ++ (if wholeFraction then ".0" else "")
  else if 0 < point then
    String.ofList (text.toList.take point.toNat) ++ "." ++
      String.ofList (text.toList.drop point.toNat)
  else
    "0." ++ zeros (-point).toNat ++ text

/-- Writes digits with an exponent. -/
def exponential (d : Digits) : String :=
  let mantissa :=
    match (digitText d.digits).toList with
    | first :: [] => String.ofList [first]
    | first :: rest => String.ofList (first :: '.' :: rest)
    | [] => ""
  let e := d.exponent
  mantissa ++ "e" ++ (if e < 0 then "-" else "+") ++ digitText e.natAbs

/-- Is a number with this exponent written out? -/
def Layout.isPositional (l : Layout) (exponent : Int) : Bool :=
  if exponent < 0 then
    l.positionalBelow.all fun limit => decide (exponent.natAbs ≤ limit)
  else
    l.positionalAbove.all fun limit => decide (exponent.natAbs ≤ limit)

/-- The shortest decimal that reads back as a double. -/
def Layout.write (l : Layout) (x : Float) : String :=
  match Binary.ofFloat x with
  | .undefined => undefinedText
  | .infinite negative => infiniteText negative
  | .finite negative 0 _ =>
    signText negative ++ (if l.wholeFraction then "0.0" else "0")
  | .finite negative mantissa exponent =>
    let d := Shortest.digits l.tie mantissa exponent
    signText negative ++
      (if l.isPositional d.exponent then positional l.wholeFraction d else exponential d)

/-! ## A given number of places -/

/-- A natural number with a point in front of its last `places` digits. -/
def withPoint (n places : Nat) : String :=
  let text := (Nat.toDigits 10 n)
  let text := List.replicate (places + 1 - text.length) '0' ++ text
  let whole := String.ofList (text.take (text.length - places))
  if places = 0 then whole
  else whole ++ "." ++ String.ofList (text.drop (text.length - places))

/-- A double rounded to a number of places behind the point.  Zero keeps its sign. -/
def fixed (places : Nat) (x : Float) : String :=
  match Binary.ofFloat x with
  | .undefined => undefinedText
  | .infinite negative => infiniteText negative
  | .finite negative mantissa exponent =>
    let r := ((Ratio.ofNat mantissa).scale 2 exponent).scale 10 places
    signText negative ++ withPoint r.roundHalfEven places

/-- A double rounded to a number of places behind the point of its mantissa, with an exponent. -/
def scientific (places : Nat) (x : Float) : String :=
  match Binary.ofFloat x with
  | .undefined => undefinedText
  | .infinite negative => infiniteText negative
  | .finite negative 0 _ => signText negative ++ withPoint 0 places ++ "e0"
  | .finite negative mantissa exponent =>
    let r := (Ratio.ofNat mantissa).scale 2 exponent
    let e := r.exponentIn 10
    let n := (r.scale 10 (places - e)).roundHalfEven
    let (n, e) := if n = Nat.pow 10 (places + 1) then (Nat.pow 10 places, e + 1) else (n, e)
    signText negative ++ withPoint n places ++ "e" ++ signText (decide (e < 0)) ++
      digitText e.natAbs

end Decimal

end SketchSolver

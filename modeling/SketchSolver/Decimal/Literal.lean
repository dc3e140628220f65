import SketchSolver.Decimal.Double
import SketchSolver.Text.Parser

/-!
# Decimal literals

The numbers of a sketch file: `12`, `-0.5`, `.25`, `1.`, `6.02e23`, and the words `nan`, `inf` and
`infinity` in letters of either case.  A literal is read as far as it goes and stands for the
double nearest to it.
-/

namespace SketchSolver

/-- A number as it is written. -/
inductive Literal where
  /-- No number at all. -/
  | undefined
  /-- Beyond all numbers, on one side. -/
  | infinite (negative : Bool)
  /-- The number `digits · 10 ^ exponent`, or its opposite. -/
  | number (negative : Bool) (digits : Nat) (exponent : Int)
deriving DecidableEq, Repr

namespace Literal

/-- The number that decimal digits write. -/
def natOfDigits (ds : List Char) : Nat :=
  ds.foldl (fun n d => 10 * n + (d.toNat - '0'.toNat)) 0

/-- The double a literal stands for. -/
def value : Literal → Float
  | .undefined => 0 / 0
  | .infinite negative => if negative then -1 / 0 else 1 / 0
  | .number negative digits exponent => Binary.ofDecimal negative digits exponent

/-- Reads a run of digits. -/
def digits : Parser (List Char) :=
  Parser.many1 Char.isDigit

/-- Reads a sign, if there is one, and answers whether it is a minus. -/
def sign : Parser Bool := do
  return (← Parser.maybe (Parser.charOf fun c => c = '+' || c = '-')) == some '-'

/-- Reads an integer with or without a sign. -/
def integer : Parser Int := do
  let negative ← sign
  let n := natOfDigits (← digits)
  return if negative then -n else n

/-- Reads an exponent.  Where the letter `e` stands, an exponent has to follow. -/
def exponent : Parser Int := do
  match ← Parser.peek with
  | some 'e' | some 'E' =>
    discard (Parser.charOf fun c => c = 'e' || c = 'E')
    integer
  | _ => return 0

/-- Reads digits with a point before, between or behind them, and answers with those before it and
those behind it. -/
def mantissa : Parser (List Char × List Char) := do
  match ← Parser.peek with
  | some '.' =>
    Parser.char '.'
    return ([], ← digits)
  | _ =>
    let whole ← digits
    let fraction ← Parser.maybe do
      Parser.char '.'
      Parser.many Char.isDigit
    return (whole, fraction.getD [])

/-- Reads a decimal without a sign: digits, perhaps with a point, and an exponent. -/
def unsignedNumber (negative : Bool) : Parser Literal := do
  let (whole, fraction) ← mantissa
  let e ← exponent
  return .number negative (natOfDigits (whole ++ fraction)) (e - fraction.length)

/-- Reads infinity, which may be abbreviated. -/
def infinity (negative : Bool) : Parser Literal := do
  Parser.wordAnyCase "inf"
  discard (Parser.maybe (Parser.wordAnyCase "inity"))
  return .infinite negative

/-- Reads a literal: an unsigned `nan`, or infinity or a decimal with or without a sign. -/
def literal : Parser Literal :=
  (do Parser.wordAnyCase "nan"; return .undefined) <|> do
    let negative ← sign
    infinity negative <|> unsignedNumber negative

end Literal

end SketchSolver

import SketchSolver.Json
import SketchSolver.Text.Parser

/-!
# Reading JSON

A text is JSON if it is one value with nothing but blanks around it.  Reading is by the shape of
the next character; the bound on the depth is the length of the text, which no value exceeds.
-/

namespace SketchSolver

namespace Json

/-- Is this a blank between the parts of a JSON text? -/
def isBlank (c : Char) : Bool :=
  c = ' ' || c = '\t' || c = '\n' || c = '\r'

/-- Skips blanks. -/
def blanks : Parser Unit := do
  discard (Parser.many isBlank)

/-- Reads a character with blanks in front of it. -/
def mark (c : Char) : Parser Unit := do
  blanks
  Parser.char c

/-! ## Numbers -/

/-- Reads the digits in front of the point: a single zero, or digits that do not begin with
one. -/
def wholeDigits : Parser (List Char) := do
  let ds ← Parser.many1 Char.isDigit
  match ds with
  | '0' :: _ :: _ => failure
  | ds => return ds

/-- Reads a number. -/
def readNumber : Parser JsonNumber := do
  let minus ← Parser.maybe (Parser.char '-')
  let whole ← wholeDigits
  let fraction ←
    match ← Parser.peek with
    | some '.' => do
      Parser.char '.'
      Parser.many1 Char.isDigit
    | _ => pure []
  let exponent ←
    match ← Parser.peek with
    | some 'e' | some 'E' => do
      discard (Parser.charOf fun c => c = 'e' || c = 'E')
      let sign ← Parser.maybe (Parser.charOf fun c => c = '+' || c = '-')
      pure (some (sign == some '-', ← Parser.many1 Char.isDigit))
    | _ => pure none
  return ⟨minus.isSome, whole, fraction, exponent⟩

/-! ## Strings -/

/-- The value of a hexadecimal digit. -/
def hexValue? (c : Char) : Option Nat :=
  if c.isDigit then some (c.toNat - '0'.toNat)
  else if 'a' ≤ c && c ≤ 'f' then some (c.toNat - 'a'.toNat + 10)
  else if 'A' ≤ c && c ≤ 'F' then some (c.toNat - 'A'.toNat + 10)
  else none

/-- The value of four hexadecimal digits. -/
def hexUnit? (a b c d : Char) : Option Nat := do
  return (((← hexValue? a) * 16 + (← hexValue? b)) * 16 + (← hexValue? c)) * 16 + (← hexValue? d)

/-- The character that stands behind a backslash for another one. -/
def escaped? : Char → Option Char
  | '"' => some '"'
  | '\\' => some '\\'
  | '/' => some '/'
  | 'b' => some '\x08'
  | 'f' => some '\x0c'
  | 'n' => some '\n'
  | 'r' => some '\r'
  | 't' => some '\t'
  | _ => none

/-- Reads a string up to its closing quote, as a list of code points.  An escape may contribute
half of a surrogate pair. -/
def codePoints : List Char → Option (List Nat × List Char)
  | [] => none
  | '"' :: rest => some ([], rest)
  | '\\' :: 'u' :: a :: b :: c :: d :: rest => do
    let n ← hexUnit? a b c d
    let (ns, rest) ← codePoints rest
    return (n :: ns, rest)
  | '\\' :: e :: rest => do
    let c ← escaped? e
    let (ns, rest) ← codePoints rest
    return (c.toNat :: ns, rest)
  | c :: rest =>
    if c.toNat < 0x20 then
      none
    else do
      let (ns, rest) ← codePoints rest
      return (c.toNat :: ns, rest)

/-- Is this the first half of a surrogate pair? -/
def isHighHalf (n : Nat) : Bool :=
  decide (0xD800 ≤ n) && decide (n < 0xDC00)

/-- Is this the second half of a surrogate pair? -/
def isLowHalf (n : Nat) : Bool :=
  decide (0xDC00 ≤ n) && decide (n < 0xE000)

/-- The text of some code points, in which both halves of a surrogate pair make one character.
None if half of a pair is missing. -/
def textOf? : List Nat → Option (List Char)
  | [] => some []
  | high :: low :: rest =>
    if isHighHalf high && isLowHalf low then do
      let c := Char.ofNat (0x10000 + (high - 0xD800) * 0x400 + (low - 0xDC00))
      return c :: (← textOf? rest)
    else if isHighHalf high || isLowHalf high then
      none
    else do
      return Char.ofNat high :: (← textOf? (low :: rest))
  | [n] => if isHighHalf n || isLowHalf n then none else some [Char.ofNat n]

/-- Reads a string. -/
def readString : Parser (Option String) := do
  Parser.char '"'
  let points ← codePoints
  return (textOf? points).map String.ofList

/-! ## Values -/

mutual

/-- Reads a value, with blanks in front of it, that is nested at most `depth` deep. -/
def readValue : Nat → Parser Json
  | 0 => failure
  | depth + 1 => do
    blanks
    match ← Parser.peek with
    | some 'n' => do
      Parser.word "null"
      return .null
    | some 't' => do
      Parser.word "true"
      return .bool true
    | some 'f' => do
      Parser.word "false"
      return .bool false
    | some '"' => return .string (← readString)
    | some '[' => do
      Parser.char '['
      (do mark ']'; return .array []) <|> (return .array (← readItems depth))
    | some '\x7b' => do
      Parser.char '\x7b'
      (do mark '\x7d'; return .object []) <|> (return .object (← readMembers depth))
    | _ => return .number (← readNumber)

/-- Reads the values of an array up to its closing bracket. -/
def readItems : Nat → Parser (List Json)
  | 0 => failure
  | depth + 1 => do
    let item ← readValue depth
    (do mark ','; return item :: (← readItems depth)) <|> (do mark ']'; return [item])

/-- Reads the members of an object up to its closing brace. -/
def readMembers : Nat → Parser (List (Option String × Json))
  | 0 => failure
  | depth + 1 => do
    blanks
    let key ← readString
    mark ':'
    let value ← readValue depth
    (do mark ','; return (key, value) :: (← readMembers depth)) <|>
      (do mark '\x7d'; return [(key, value)])

end

/-- Reads a JSON text. -/
def read (text : String) : Option Json :=
  let cs := text.toList
  Parser.readAll (do let value ← readValue (cs.length + 1); blanks; return value) cs

end Json

end SketchSolver

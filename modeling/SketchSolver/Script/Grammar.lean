import SketchSolver.Decimal.Literal
import SketchSolver.Scalar.Double
import SketchSolver.Script.Instruction
import SketchSolver.Text.Alphanumeric

/-!
# The grammar of instructions

An instruction begins with its keyword.  Spaces and tabs separate the keyword and operands that
stand side by side; around `=`, `*`, `+`, `-` and `,`, and inside parentheses, they may be left
out.

| instruction | written |
|---|---|
| `handle`, `finger` | `handle a (0, 1)` |
| `pin` | `pin a` or `pin a (0, 1)` |
| `var` | `var w 5` |
| `absorb` | `absorb a b` |
| `polar`, `distance`, `angle` | `polar rod = a b` |
| `linear` | `linear w = 2 * a.x + 1` or `linear w = 2 * a.x - 1` |
| `formula` | `formula r = w * a.x + b.y` |
| `lock` | `lock rod.distance` or `lock rod.distance 5` |
-/

namespace SketchSolver

namespace Script

/-- Can this character stand in a label? -/
def isLabelChar (c : Char) : Bool :=
  Text.isAlphanumeric c || c = '_'

/-- Is this a space or a tab? -/
def isSpace (c : Char) : Bool :=
  c = ' ' || c = '\t'

/-- Reads spaces and tabs, at least one. -/
def gap : Parser Unit := do
  discard (Parser.many1 isSpace)

/-- Reads spaces and tabs, if there are any. -/
def space : Parser Unit := do
  discard (Parser.many isSpace)

/-- Reads a character with spaces and tabs around it. -/
def spaced (c : Char) : Parser Unit := do
  space
  Parser.char c
  space

/-- Reads the first word of an instruction. -/
def keyword (w : String) : Parser Unit := do
  Parser.word w
  gap

/-- Reads a label. -/
def label : Parser Label := do
  return ⟨String.ofList (← Parser.many1 isLabelChar)⟩

/-- Reads the name of a property. -/
def property : Parser Property :=
  (do Parser.word "distance"; return .distance) <|>
  (do Parser.word "angle"; return .angle) <|>
  (do Parser.char 'x'; return .x) <|>
  (do Parser.char 'y'; return .y)

/-- Reads a reference to a variable. -/
def varRef : Parser VarRef := do
  let label ← label
  let property ← Parser.maybe do
    Parser.char '.'
    property
  return ⟨label, property⟩

/-- Reads a number: a literal, or the digits in front of something that looks like one. -/
def number : Parser Float :=
  (do return (← Literal.literal).value) <|>
  (do return (Literal.number false (Literal.natOfDigits (← Literal.digits)) 0).value)

/-- Reads a point. -/
def point : Parser (Point Float) := do
  Parser.char '('
  space
  let x ← number
  spaced ','
  let y ← number
  space
  Parser.char ')'
  return ⟨x, y⟩

/-- Reads a plus or a minus sign, as the factor it stands for. -/
def factor : Parser Float := do
  match ← Parser.charOf fun c => c = '+' || c = '-' with
  | '-' => return -1
  | _ => return 1

/-- Reads a label and the two handles it stands between. -/
def betweenHandles : Parser (Label × Label × Label) := do
  let name ← label
  spaced '='
  let start ← label
  gap
  let finish ← label
  return (name, start, finish)

/-- Reads the declaration of a handle. -/
def handle : Parser (Instruction Float) := do
  keyword "handle"
  let name ← label
  gap
  return .handle name (← point)

/-- Reads the declaration of a variable. -/
def var : Parser (Instruction Float) := do
  keyword "var"
  let name ← label
  gap
  return .var name (← number)

/-- Reads a pin. -/
def pin : Parser (Instruction Float) := do
  keyword "pin"
  let target ← label
  return .pin target (← Parser.maybe do gap; point)

/-- Reads a finger. -/
def finger : Parser (Instruction Float) := do
  keyword "finger"
  let target ← label
  gap
  return .finger target (← point)

/-- Reads a merge of two handles. -/
def absorb : Parser (Instruction Float) := do
  keyword "absorb"
  let parent ← label
  gap
  return .absorb parent (← label)

/-- Reads the declaration of a polar vector. -/
def polar : Parser (Instruction Float) := do
  keyword "polar"
  let (name, start, finish) ← betweenHandles
  return .polar name start finish

/-- Reads the declaration of a distance. -/
def distance : Parser (Instruction Float) := do
  keyword "distance"
  let (name, start, finish) ← betweenHandles
  return .distance name start finish

/-- Reads the declaration of an angle. -/
def angle : Parser (Instruction Float) := do
  keyword "angle"
  let (name, start, finish) ← betweenHandles
  return .angle name start finish

/-- Reads a linear relationship.  A minus sign in front of the last number turns it around. -/
def linear : Parser (Instruction Float) := do
  keyword "linear"
  let y ← varRef
  spaced '='
  let m ← number
  spaced '*'
  let x ← varRef
  space
  let factor ← factor
  space
  return .linear y m x (factor * (← number))

/-- Reads the declaration of a formula. -/
def formula : Parser (Instruction Float) := do
  keyword "formula"
  let name ← label
  spaced '='
  let m ← varRef
  spaced '*'
  let x ← varRef
  spaced '+'
  return .formula name m x (← varRef)

/-- Reads a lock. -/
def lock : Parser (Instruction Float) := do
  keyword "lock"
  let target ← varRef
  return .lock target (← Parser.maybe do gap; number)

/-- Reads an instruction. -/
def instruction : Parser (Instruction Float) :=
  handle <|> var <|> pin <|> finger <|> absorb <|> polar <|> distance <|> angle <|> linear <|>
    formula <|> lock

end Script

end SketchSolver

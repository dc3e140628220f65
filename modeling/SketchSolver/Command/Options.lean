import SketchSolver.Decimal.Literal

/-!
# Command line

What the words of a command line ask for.  A word that begins with two dashes is the name of an
option, perhaps with a value behind an equals sign; one that begins with a single dash is a row of
one-letter options; a lone dash is a value.  An option that takes a value takes the next word if
none is attached.  Words are taken in order, so of a request for help and a mistake the first one
counts, and no option may be given twice.
-/

namespace SketchSolver

namespace Command

/-- What a run of the program is asked to do. -/
structure Options where
  /-- Where the sketch file is. -/
  path : String
  /-- How many frames to solve when measuring performance. -/
  frames : Nat := 100
  /-- Show the values of all named variables? -/
  showVariables : Bool := false
  /-- Show the solved sketch as a saved document? -/
  json : Bool := false
  /-- Do fingers place their handles exactly? -/
  fingerOfGod : Bool := false
  /-- Do polar vectors away from any finger keep their length and angle? -/
  stabilizeGizmos : Bool := false
  /-- Give up on a cluster after this many iterations. -/
  maxIterations : Option Nat := none
deriving Repr

/-- What the words of a command line ask for. -/
inductive Request where
  /-- To solve a sketch. -/
  | solve (options : Options)
  /-- To explain the options. -/
  | help
  /-- To tell the version. -/
  | version
  /-- Nothing that makes sense. -/
  | misuse
deriving Repr

/-- The options that were given so far. -/
structure Given where
  /-- Where the sketch file is. -/
  path : Option String := none
  /-- How many frames to solve. -/
  frames : Option Nat := none
  /-- The limit of iterations. -/
  maxIterations : Option Nat := none
  /-- The names of the switches that were turned on. -/
  switches : List String := []

/-! ## Values -/

/-- Reads decimal digits, at least one. -/
def digits? : List Char → Option Nat
  | [] => none
  | ds => if ds.all Char.isDigit then some (Literal.natOfDigits ds) else none

/-- Reads a number of frames: a whole number with or without a sign that fits 32 bits. -/
def frames? (text : String) : Option Nat := do
  let n ←
    match text.toList with
    | '+' :: ds => digits? ds
    | '-' :: ds => do if (← digits? ds) = 0 then some 0 else none
    | ds => digits? ds
  if n < 0x100000000 then some n else none

/-- Reads a number of iterations: a whole number, perhaps with a plus sign, that fits 64 bits. -/
def iterations? (text : String) : Option Nat := do
  let n ←
    match text.toList with
    | '+' :: ds => digits? ds
    | ds => digits? ds
  if n < 0x10000000000000000 then some n else none

/-- Takes in an option with its value.  None if the value is unfit or the option was given. -/
def Given.withValue (g : Given) (name value : String) : Option Given :=
  match name with
  | "filepath" =>
    if g.path.isSome || value.isEmpty then none else some { g with path := some value }
  | "frames" =>
    if g.frames.isSome then none
    else (frames? value).map fun n => { g with frames := some n }
  | "max-iterations" =>
    if g.maxIterations.isSome then none
    else (iterations? value).map fun n => { g with maxIterations := some n }
  | _ => none

/-- Takes in a switch.  None if it was given. -/
def Given.withSwitch (g : Given) (name : String) : Option Given :=
  if g.switches.contains name then none else some { g with switches := name :: g.switches }

/-- What was asked for, once all words are taken. -/
def Given.conclude (g : Given) : Request :=
  match g.path with
  | none => .misuse
  | some path =>
    .solve {
      path
      frames := g.frames.getD 100
      showVariables := g.switches.contains "show-variables"
      json := g.switches.contains "json"
      fingerOfGod := g.switches.contains "finger-of-god"
      stabilizeGizmos := g.switches.contains "stabilize-gizmos"
      maxIterations := g.maxIterations }

/-! ## Words -/

/-- The options that take a value. -/
def valueNames : List String := ["filepath", "frames", "max-iterations"]

/-- The options that take none. -/
def switchNames : List String := ["show-variables", "json", "finger-of-god", "stabilize-gizmos"]

/-- A word, taken apart. -/
inductive Word where
  /-- Two dashes and nothing else: no option follows. -/
  | separator
  /-- The name of an option, with the value attached to it. -/
  | long (name : String) (attached : Option String)
  /-- A row of one-letter options. -/
  | short (letters : List Char)
  /-- Anything else. -/
  | value (text : String)

/-- Takes a word apart. -/
def Word.ofString (text : String) : Word :=
  match text.toList with
  | ['-', '-'] => .separator
  | '-' :: '-' :: rest =>
    let name := String.ofList (rest.takeWhile (· ≠ '='))
    match rest.dropWhile (· ≠ '=') with
    | _ :: attached => .long name (some (String.ofList attached))
    | [] => .long name none
  | '-' :: letter :: rest => .short (letter :: rest)
  | _ => .value text

/-- What one word leads to. -/
inductive Step where
  /-- More words may follow. -/
  | next (given : Given)
  /-- The value of this option has to follow. -/
  | await (given : Given) (name : String)
  /-- The request is clear. -/
  | stop (request : Request)

/-- Goes on with the options given, unless there was a mistake. -/
def Step.ofOption : Option Given → Step
  | some g => .next g
  | none => .stop .misuse

/-- Takes in an option by its name. -/
def takeLong (g : Given) (name : String) (attached : Option String) : Step :=
  if valueNames.contains name then
    match attached with
    | some value => .ofOption (g.withValue name value)
    | none => .await g name
  else if attached.isSome then
    .stop .misuse
  else if switchNames.contains name then
    .ofOption (g.withSwitch name)
  else if name = "help" then
    .stop .help
  else if name = "version" then
    .stop .version
  else
    .stop .misuse

/-- Takes in a row of one-letter options.  The letter `f` takes a value, which is the rest of the
row, with or without an equals sign in front, or else the next word. -/
def takeShort (g : Given) : List Char → Step
  | 'f' :: [] => .await g "filepath"
  | 'f' :: '=' :: value => .ofOption (g.withValue "filepath" (String.ofList value))
  | 'f' :: value => .ofOption (g.withValue "filepath" (String.ofList value))
  | 'h' :: _ => .stop .help
  | 'V' :: _ => .stop .version
  | _ => .stop .misuse

/-- Takes in the words of a command line, of which the first may be the value of an option that
awaits one. -/
def takeWords (g : Given) (awaiting : Option String) : List String → Request
  | [] => if awaiting.isSome then .misuse else g.conclude
  | text :: rest =>
    match Word.ofString text, awaiting with
    | .value value, some name =>
      match g.withValue name value with
      | some g => takeWords g none rest
      | none => .misuse
    | _, some _ => .misuse
    | .value _, none => .misuse
    | .separator, none => if rest.isEmpty then g.conclude else .misuse
    | .long name attached, none =>
      match takeLong g name attached with
      | .next g => takeWords g none rest
      | .await g name => takeWords g (some name) rest
      | .stop request => request
    | .short letters, none =>
      match takeShort g letters with
      | .next g => takeWords g none rest
      | .await g name => takeWords g (some name) rest
      | .stop request => request

/-- What a command line asks for. -/
def Request.ofArgs (args : List String) : Request :=
  takeWords {} none args

end Command

end SketchSolver

import SketchSolver.Command

/-!
# The program

Reads a sketch file, solves it, measures how long that takes, and prints what `Command` says about
it.
-/

namespace SketchSolver

namespace Program

/-- The explanation of the options. -/
def usage : String :=
  "Usage: ink [OPTIONS] --filepath <FILEPATH>\n\n" ++
  "Options:\n" ++
  "  -f, --filepath <FILEPATH>              Path to the sketch file, '-' for stdin\n" ++
  "      --frames <FRAMES>                  How many frames to solve [default: 100]\n" ++
  "      --show-variables                   Show the final value of every named variable\n" ++
  "      --json                             Print the solved sketch in its persisted JSON form\n" ++
  "      --finger-of-god                    Fingers place their handles exactly\n" ++
  "      --stabilize-gizmos                 Polar vectors away from any finger stay rigid\n" ++
  "      --max-iterations <MAX_ITERATIONS>  Give up on a cluster after this many iterations\n" ++
  "  -h, --help                             Print help\n" ++
  "  -V, --version                          Print version"

/-- Why reading failed. -/
def readFailure : IO.Error → Command.ReadFailure
  | .noFileOrDirectory .. => .missing
  | .permissionDenied .. => .forbidden
  | .inappropriateType _ code _ => if code = 21 then .isDirectory else .notDirectory
  | .noSuchThing .. => .noDevice
  | .hardwareFault .. => .deviceFailed
  | .userError _ => .notText
  | e@(.invalidArgument _ code _) => if code = -36 then .nameTooLong else .other (toString e)
  | e => .other (toString e)

/-- Reads the sketch file. -/
def readText (path : String) : IO String := do
  if Command.isStandardInput path then
    (← IO.getStdin).readToEnd
  else
    IO.FS.readFile path

/-- Prints a transcript. -/
def print (t : Command.Transcript) : IO UInt32 := do
  for line in t.output do
    IO.println line
  for line in t.errors do
    IO.eprintln line
  return t.code.toUInt32

/-- The lines about measured times. -/
def timeLines (frames micros : Nat) : List String :=
  [s!"Solved in {micros}μs (mean over {frames} frames)",
    s!"i.e. {1000000 / max micros 1} frames per second"]

/-- Solves a text as many times as there are frames, and prints the transcript of the last. -/
def solve (o : Command.Options) (text : String) : IO UInt32 := do
  let frames := max o.frames 1
  let start ← IO.monoNanosNow
  let mut last := Command.solveText o text
  for _ in [1:frames] do
    last := Command.solveText o text
  let stop ← IO.monoNanosNow
  match last with
  | .ok s => print (s.transcript o (timeLines frames ((stop - start) / 1000 / frames)))
  | .error t => print t

end Program

end SketchSolver

open SketchSolver in
/-- Runs the program. -/
def main (args : List String) : IO UInt32 := do
  match Command.Request.ofArgs args with
  | .help => do
    IO.println Program.usage
    return 0
  | .version => do
    IO.println "ink 0.1.0"
    return 0
  | .misuse => do
    IO.eprintln Program.usage
    return 2
  | .solve o =>
    match ← (Program.readText o.path).toBaseIO with
    | .ok text => Program.solve o text
    | .error e =>
      let reason := Program.readFailure e
      Program.print <|
        if Command.isStandardInput o.path then .failure reason.message []
        else .unreadable o.path reason

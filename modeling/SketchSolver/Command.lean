import SketchSolver.Command.File
import SketchSolver.Command.Options
import SketchSolver.Document.Write
import SketchSolver.Scalar.Double
import SketchSolver.Script.Run

/-!
# Solving a sketch file

What the program prints about a sketch file.  If everything succeeds, it is a summary of the
solve, the positions of all handles, and whatever else was asked for; if not, it is the reason.
Measured times are handed in, so that all of this is a function of the text and the options.
-/

namespace SketchSolver

namespace Command

/-- What a run prints and how it ends. -/
structure Transcript where
  /-- The exit code. -/
  code : Nat
  /-- The lines of the standard output. -/
  output : List String
  /-- The lines of the standard error output. -/
  errors : List String
deriving Repr

/-- The transcript of a run that could not solve the sketch, for a reason. -/
def Transcript.failure (reason : String) (advice : List String) : Transcript :=
  ⟨1, [], ("Could not solve sketch: " ++ reason) :: advice⟩

/-- The transcript of a run that could not read the sketch file. -/
def Transcript.unreadable (path : String) (e : ReadFailure) : Transcript :=
  .failure s!"Could not read {path}: {e.message}" []

/-- A solved sketch with all that was reported about it. -/
structure Solution where
  /-- The sketch after the solve. -/
  sketch : Sketch Float
  /-- What the labels of the file stand for. -/
  labels : Labels
  /-- The summary of the solve. -/
  report : Report

/-- The reason of a failed solve, down to the cause of a failed cluster. -/
def solveReason (e : SolverError) : String :=
  let cause :=
    match e with
    | .minimizer _ source => ": " ++ source.message
    | _ => ""
  "Could not solve sketch: " ++ e.message ++ cause

/-- What can be done about a failed solve. -/
def solveAdvice : SolverError → List String
  | .minimizer cluster _ =>
    [s!"Cluster {cluster} might have contradictory constraints. Try unlocking something."]
  | _ => []

/-- Sets a sketch up as the options ask. -/
def configure (o : Options) (s : Sketch Float) : Sketch Float :=
  let standard : Config Float := .standard
  let config := { standard with maxIterations := o.maxIterations.getD standard.maxIterations }
  { s with config, stabilizeGizmos := o.stabilizeGizmos, fingerOfGod := o.fingerOfGod }

/-- Reads, runs and solves a sketch file. -/
def solveText (o : Options) (text : String) : Except Transcript Solution := do
  match (Script.parse text).bind Script.run with
  | .error e => throw (.failure e.message [])
  | .ok (sketch, labels) =>
    match Sketch.solve.run (configure o sketch) with
    | .error e _ => throw (.failure (solveReason e) (solveAdvice e))
    | .ok report sketch => return ⟨sketch, labels, report⟩

/-- The summary of a solve. -/
def summaryLines (r : Report) : List String :=
  [s!"Clusters: {r.clusters} ({r.solved} solved, {r.fullyDetermined} fully determined by knowns)"]
    ++ (if 0 < r.abandoned then
      [s!"{r.abandoned} clusters hit the iteration limit and were left as they were"] else [])
    ++ [s!"Iterations needed: {r.iterations}"]

/-- The positions of all handles. -/
def handleLines (s : Solution) : Except SolverError (List String) :=
  s.labels.handles.entries.mapM fun (label, id) => do
    let p ← s.sketch.position id
    return "\t" ++ label.text ++ ": (" ++ Decimal.fixed 2 p.x ++ ", " ++ Decimal.fixed 2 p.y ++ ")"

/-- The values of all variables, and which of them are locked. -/
def variableLines (s : Solution) : Except SolverError (List String) :=
  s.labels.vars.entries.mapM fun (name, id) => do
    let value ← s.sketch.arena.value id
    let mark := if ← s.sketch.isLocked id then " (locked)" else ""
    return "\t" ++ name ++ " = " ++ Decimal.fixed 4 value ++ mark

/-- Everything that is printed about a solved sketch. -/
def solutionLines (o : Options) (times : List String) (s : Solution) :
    Except SolverError (List String) := do
  let handles ← handleLines s
  let values ← if o.showVariables then variableLines s else pure []
  let values := if o.showVariables then "Variables:" :: values else []
  let document := if o.json then [(Document.ofSketch s.sketch).write] else []
  return summaryLines s.report ++ times ++ "Handles:" :: handles ++ values ++ document

/-- The transcript of a run on a sketch that was solved. -/
def Solution.transcript (o : Options) (times : List String) (s : Solution) : Transcript :=
  match solutionLines o times s with
  | .ok lines => ⟨0, lines, []⟩
  | .error e => ⟨1, [], ["Error: " ++ e.message]⟩

/-- The transcript of a run on a text. -/
def run (o : Options) (times : List String) (text : String) : Transcript :=
  match solveText o text with
  | .ok s => s.transcript o times
  | .error t => t

/-- The transcript of a run that sees the given files and the given standard input. -/
def runOn (files : FileTree) (input : String) (o : Options) (times : List String) : Transcript :=
  if isStandardInput o.path then
    run o times input
  else
    match files.read o.path with
    | .ok text => run o times text
    | .error e => .unreadable o.path e

end Command

end SketchSolver

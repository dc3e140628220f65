import SketchSolver.Cluster.Propagate
import SketchSolver.Search

/-!
# Solving clusters

Each cluster is solved as its own problem: what follows directly is computed, the variables left
over are handed to the minimizer, and its answer is written back, or everything is put back as it
was.

* `Problem` is a cluster with its knowns, its free variables and its parameters.
* `Problem.evaluate` is the objective: the sum of the squared residuals when the parameters take
  given values.  Looking at it writes to the arena.
* `solveCluster` solves one cluster and says what came of it; `solveClusters` solves them all, and
  a failure of one does not stop the others.
* `Report` sums up the outcomes.
-/

namespace SketchSolver

/-- What solving a cluster reads besides the variables. -/
structure SolveContext (α : Type) where
  /-- The constraints of the sketch. -/
  constraints : ConstraintTable α
  /-- The handles of the sketch. -/
  handles : HandleTable
  /-- Does a finger put its handle exactly where it is? -/
  fingerOfGod : Bool
  /-- Do polar vectors away from any finger move as rigid rods? -/
  stabilizeGizmos : Bool

/-- A cluster whose direct consequences have been drawn. -/
structure Problem (α : Type) where
  /-- The terms of the objective. -/
  residuals : List (Residual α)
  /-- The canonical variables that are known. -/
  knowns : Knowns
  /-- The canonical variables that their owner computes. -/
  free : OrderedSet VarId
  /-- The canonical variables to search for. -/
  parameters : List VarId

namespace Problem

variable {α : Type} [Scalar α]

/-- Draws the direct consequences of a cluster, and finds what is left to determine. -/
def prepare (ctx : SolveContext α) (c : Cluster α) (arena : Arena α) :
    Except SolverError (Problem α × Arena α) := do
  let preset ←
    if ctx.stabilizeGizmos then c.gizmoKnowns ctx.constraints ctx.handles arena
    else pure .empty
  let k ← c.propagate ctx.constraints ctx.handles ctx.fingerOfGod ⟨arena, preset⟩
  let free := c.free k
  return (⟨c.residuals, k.knowns, free, c.parameters k free⟩, k.arena)

/-- Writes values to variables, as far as there are both. -/
def write (ids : List VarId) (values : List α) (arena : Arena α) :
    Except SolverError (Arena α) :=
  (ids.zip values).foldlM (fun arena (id, value) => arena.setValue id value) arena

/-- The sum of the squared residuals at the present values.  Writes the free variables. -/
def totalError (p : Problem α) (fingerOfGod : Bool) (arena : Arena α) :
    Except SolverError (α × Arena α) :=
  p.residuals.foldlM
    (fun (total, arena) r => do
      let (e, arena) ← r.error p.knowns p.free fingerOfGod arena
      return (total + e * e, arena))
    (0, arena)

/-- The objective: the sum of the squared residuals when the parameters take these values. -/
def evaluate (p : Problem α) (fingerOfGod : Bool) (values : List α) (arena : Arena α) :
    Except SolverError (α × Arena α) := do
  p.totalError fingerOfGod (← write p.parameters values arena)

/-- The objective as a search sees it.  Should evaluation fail, the first failure is kept beside
the arena, and the value is undefined. -/
def objective (p : Problem α) (fingerOfGod : Bool) (values : List α) :
    Arena α × Option SolverError → α × (Arena α × Option SolverError)
  | (arena, failure) =>
    match p.evaluate fingerOfGod values arena with
    | .ok (total, arena) => (total, arena, failure)
    | .error e => (Scalar.undefined, arena, some (failure.getD e))

/-- Puts the parameters and the free variables back to earlier values. -/
def restore (p : Problem α) (parameters free : List α) (arena : Arena α) :
    Except SolverError (Arena α) := do
  write p.free.toList free (← write p.parameters parameters arena)

end Problem

/-- What came of a cluster. -/
inductive Outcome where
  /-- Everything followed directly. -/
  | determined
  /-- The minimizer found values. -/
  | solved (iterations : Count)
  /-- The minimizer ran out of iterations, and the values were put back. -/
  | abandoned (iterations : Count)
  /-- The minimizer failed, and the values were put back. -/
  | failed (error : MinimizerError)
deriving DecidableEq, Repr

section

variable {α σ : Type} [Scalar α]

/-- Searches for the parameters of a problem and writes the answer back. -/
def Problem.search (p : Problem α) (fingerOfGod : Bool) (m : Minimizer σ α) (memory : σ)
    (arena : Arena α) : Except SolverError (Outcome × σ × Arena α) := do
  let start ← p.parameters.mapM arena.value
  let freeBefore ← p.free.toList.mapM arena.value
  let ((answer, memory), arena, failure) :=
    (m.minimize memory start).run (p.objective fingerOfGod) (arena, none)
  if let some e := failure then
    throw e
  match answer with
  | .ok ⟨solution, .converged, iterations⟩ =>
    let (_, arena) ← p.evaluate fingerOfGod solution arena
    return (.solved iterations, memory, arena)
  | .ok ⟨_, .iterationLimit, iterations⟩ =>
    return (.abandoned iterations, memory, ← p.restore start freeBefore arena)
  | .error e =>
    return (.failed e, memory, ← p.restore start freeBefore arena)

/-- Solves one cluster. -/
def solveCluster (ctx : SolveContext α) (m : Minimizer σ α) (memory : σ) (c : Cluster α)
    (arena : Arena α) : Except SolverError (Outcome × σ × Arena α) := do
  let (p, arena) ← Problem.prepare ctx c arena
  if p.parameters.isEmpty then
    let (_, arena) ← p.totalError ctx.fingerOfGod arena
    return (.determined, memory, arena)
  else
    p.search ctx.fingerOfGod m memory arena

/-- Solves all clusters, in order. -/
def solveClusters (ctx : SolveContext α) (m : Minimizer σ α) :
    List (Cluster α) → σ → Arena α → Except SolverError (List Outcome × σ × Arena α)
  | [], memory, arena => .ok ([], memory, arena)
  | c :: rest, memory, arena => do
    let (outcome, memory, arena) ← solveCluster ctx m memory c arena
    let (outcomes, memory, arena) ← solveClusters ctx m rest memory arena
    return (outcome :: outcomes, memory, arena)

end

/-- A summary of a solve. -/
structure Report where
  /-- How many clusters there are. -/
  clusters : Nat := 0
  /-- Of how many the values were updated. -/
  solved : Nat := 0
  /-- In how many of these everything followed directly. -/
  fullyDetermined : Nat := 0
  /-- How many were left as they were because the minimizer ran out of iterations. -/
  abandoned : Nat := 0
  /-- On how many the minimizer failed. -/
  failed : Nat := 0
  /-- The iterations on all clusters together. -/
  iterations : Count := 0
deriving DecidableEq, Repr

namespace Report

/-- Counts one more cluster. -/
def add (r : Report) (outcome : Outcome) : Report :=
  let r := { r with clusters := r.clusters + 1 }
  match outcome with
  | .determined =>
    { r with solved := r.solved + 1, fullyDetermined := r.fullyDetermined + 1 }
  | .solved n => { r with solved := r.solved + 1, iterations := r.iterations + n }
  | .abandoned n => { r with abandoned := r.abandoned + 1, iterations := r.iterations + n }
  | .failed _ => { r with failed := r.failed + 1 }

/-- The summary of some outcomes, in order. -/
def ofOutcomes (outcomes : List Outcome) : Report :=
  outcomes.foldl add {}

/-- The first failure among some outcomes, with the index of its cluster. -/
def firstFailure (outcomes : List Outcome) : Option (Nat × MinimizerError) :=
  outcomes.zipIdx.findSome? fun
    | (.failed e, index) => some (index, e)
    | _ => none

/-- The summary, or the first failure if there is one. -/
def conclude (outcomes : List Outcome) : Except SolverError Report :=
  match firstFailure outcomes with
  | some (index, e) => .error (.minimizer index e)
  | none => .ok (ofOutcomes outcomes)

end Report

end SketchSolver

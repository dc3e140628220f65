import SketchSolver.Sketch.Lock

/-!
# Solving a sketch

The clustering is built when it is needed and kept until something changes.  A solve takes the
clusters one by one; what it changes of the sketch are values, apart from the clustering.
-/

namespace SketchSolver

namespace Sketch

variable {α σ : Type} [Scalar α]

/-- The sketch with a present clustering. -/
def clustered (s : Sketch α) : Except SolverError (List (Cluster α) × Sketch α) :=
  match s.clusters with
  | some clusters => .ok (clusters, s)
  | none => do
    let (clusters, arena, handles) ← Cluster.build s.constraints s.arena s.handles
    return (clusters, { s with arena, handles, clusters := some clusters })

/-- The present clustering, which is built if need be. -/
def currentClusters : Edit α (List (Cluster α)) := do
  let (clusters, s) ← Edit.ofExcept ((← get).clustered)
  set s
  return clusters

/-- What solving a cluster of this sketch reads besides the variables. -/
def solveContext (s : Sketch α) : SolveContext α :=
  ⟨s.constraints, s.handles, s.fingerOfGod, s.stabilizeGizmos⟩

/-- Solves with a minimizer.  Answers with a report or the first failure, with what the minimizer
remembers, and with the sketch afterwards: a failure on one cluster does not undo the others. -/
def solveWith (m : Minimizer σ α) (memory : σ) (s : Sketch α) :
    Except SolverError Report × σ × Sketch α :=
  match s.clustered with
  | .error e => (.error e, memory, s)
  | .ok (clusters, s) =>
    match solveClusters s.solveContext m clusters memory s.arena with
    | .error e => (.error e, memory, s)
    | .ok (outcomes, memory, arena) => (Report.conclude outcomes, memory, { s with arena })

/-- Solves with the standard minimizer. -/
def solve : Edit α Report := do
  let s ← get
  let (answer, (), s) := s.solveWith (Bfgs.minimizer s.config) ()
  set s
  Edit.ofExcept answer

end Sketch

end SketchSolver

import SketchSolver.Cluster.Build
import SketchSolver.Search.Bfgs
import SketchSolver.Solve

/-!
# Sketches

A sketch owns its handles, its variables and the constraints between them, all named by one
supply of identifiers.  Beside them it keeps two things that could be computed again: `memo`
finds the constraint with a given key, and `clusters` is the present clustering, if nothing has
changed since it was built.

`Edit` is an operation that changes a sketch, answers with a value, and may fail.  A failed
operation leaves the sketch as far as it had changed it.
-/

namespace SketchSolver

/-- Handles, variables and the constraints between them. -/
structure Sketch (α : Type) where
  /-- Where identifiers come from. -/
  ids : IdSupply
  /-- The variables. -/
  arena : Arena α
  /-- The handles. -/
  handles : HandleTable
  /-- The constraints, in order of creation. -/
  constraints : ConstraintTable α
  /-- The constraint that has a key. -/
  memo : OrderedMap ConstraintKey ConstraintId
  /-- The present clustering, unless something has changed since it was built. -/
  clusters : Option (List (Cluster α))
  /-- Tuning of the standard minimizer. -/
  config : Config α
  /-- Do polar vectors away from any finger move as rigid rods? -/
  stabilizeGizmos : Bool
  /-- Does a finger put its handle exactly where it is? -/
  fingerOfGod : Bool

/-- An operation on a sketch. -/
abbrev Edit (α β : Type) := EStateM SolverError (Sketch α) β

namespace Edit

variable {α β : Type}

/-- A result that does not change the sketch. -/
def ofExcept : Except SolverError β → Edit α β
  | .ok b => pure b
  | .error e => throw e

/-- A change of the variables alone. -/
def onArena (f : Arena α → Except SolverError (Arena α)) : Edit α Unit := do
  let s ← get
  set { s with arena := ← ofExcept (f s.arena) }

end Edit

namespace Sketch

variable {α : Type}

/-- The sketch without anything in it. -/
def withConfig (config : Config α) : Sketch α :=
  ⟨{}, .empty, .empty, .empty, .empty, none, config, false, false⟩

/-- The sketch without anything in it, and with the standard tuning. -/
def empty [Scalar α] : Sketch α :=
  withConfig .standard

/-- Forgets the clustering, because something has changed. -/
def invalidate (s : Sketch α) : Sketch α :=
  { s with clusters := none }

/-! ## Reading -/

/-- Where a handle is. -/
def position (s : Sketch α) (id : HandleId) : Except SolverError (Point α) := do
  (← s.handles.coords id).read s.arena

/-- Has a variable a constant of its own?  Fails if there is no such variable. -/
def isLocked (s : Sketch α) (id : VarId) : Except SolverError Bool := do
  discard (s.arena.find id)
  return s.memo.contains (.constant id)

variable [Scalar α]

/-- The canonical variable of a variable.  Fails if there is no such variable. -/
def canonical (s : Sketch α) (id : VarId) : Except SolverError VarId := do
  discard (s.arena.find id)
  return s.arena.canonical id

/-- Do two variables denote the same quantity?  Fails if one of them does not exist. -/
def equals (s : Sketch α) (this that : VarId) : Except SolverError Bool := do
  discard (s.arena.find this)
  discard (s.arena.find that)
  return s.arena.equals this that

/-- Do two handles denote the same point?  Fails if one of them does not exist. -/
def handlesEqual (s : Sketch α) (this that : HandleId) : Except SolverError Bool :=
  s.handles.equals s.arena this that

end Sketch

end SketchSolver

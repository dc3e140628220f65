import SketchSolver.Ident

/-!
# What can go wrong

Each way an operation can fail is a constructor that names its cause; the wording is kept apart,
in `message`.
-/

namespace SketchSolver

/-- Why the search for a minimum had to be given up. -/
inductive MinimizerError where
  /-- The objective has no finite value at the starting point. -/
  | nonFiniteStart
  /-- A component of the gradient is not finite. -/
  | nonFiniteGradient
  /-- A component of the step is not finite. -/
  | nonFiniteStep
  /-- Halving the step never made it short enough to stop. -/
  | endlessLineSearch
deriving DecidableEq, Repr

/-- What is said about a failed search. -/
def MinimizerError.message : MinimizerError → String
  | .nonFiniteStart => "The error function is not finite at the initial guess"
  | .nonFiniteGradient => "Gradient has Infinity or NaN"
  | .nonFiniteStep => "Search direction has Infinity or NaN"
  | .endlessLineSearch => "The line search does not end"

/-- Why an operation on a sketch failed. -/
inductive SolverError where
  /-- No variable has this identifier. -/
  | variableNotFound (id : VarId)
  /-- No handle has this identifier. -/
  | handleNotFound (id : HandleId)
  /-- No constraint has this identifier. -/
  | constraintNotFound (id : ConstraintId)
  /-- A saved sketch uses an identifier twice. -/
  | duplicateId (index : Nat)
  /-- The minimizer gave up on a cluster; the other clusters were still solved. -/
  | minimizer (cluster : Nat) (source : MinimizerError)
  /-- The text is not a saved sketch. -/
  | unreadable
deriving DecidableEq, Repr

/-- What is said about a failed operation. -/
def SolverError.message : SolverError → String
  | .variableNotFound id => s!"Variable {id.index} not found"
  | .handleNotFound id => s!"Handle {id.index} not found"
  | .constraintNotFound id => s!"Constraint {id.index} not found"
  | .duplicateId index => s!"ID {index} appears more than once in the persisted sketch"
  | .minimizer cluster source => s!"Minimizer failed on cluster {cluster}: {source.message}"
  | .unreadable => "Could not read or write the persisted sketch"

end SketchSolver

import SketchSolver.Sketch.Solve

/-!
# Operations

Everything that can be done to a sketch besides solving it, as data.  A history of a sketch is a
list of operations and solves, so what holds of every reachable sketch is proved by going through
`Operation.perform`.
-/

namespace SketchSolver

/-- Something that can be done to a sketch. -/
inductive Operation (α : Type) where
  /-- Adds a variable, perhaps with a label. -/
  | addVariable (value : α) (label : Option String)
  /-- Adds a handle. -/
  | addHandle (position : Point α)
  /-- Sets a variable. -/
  | setValue (id : VarId) (value : α)
  /-- Moves a handle. -/
  | moveHandle (id : HandleId) (position : Point α)
  /-- Removes a variable with all that depends on it. -/
  | removeVariable (id : VarId)
  /-- Removes a handle with all that depends on it. -/
  | removeHandle (id : HandleId)
  /-- Removes a constraint with all that depends on it. -/
  | removeConstraint (id : ConstraintId)
  /-- Locks a variable to a value. -/
  | constant (id : VarId) (value : α)
  /-- Locks a handle to a position. -/
  | pin (id : HandleId) (position : Point α)
  /-- Drags a handle. -/
  | finger (id : HandleId) (position : Point α)
  /-- Makes one variable a linear function of another. -/
  | linear (y : VarId) (m : α) (x : VarId) (b : α)
  /-- Merges two handles. -/
  | absorb (parent child : HandleId)
  /-- Owns distance and angle between two handles. -/
  | polar (start finish : HandleId)
  /-- Owns the distance between two handles. -/
  | distance (start finish : HandleId)
  /-- Owns the angle between two handles. -/
  | angle (start finish : HandleId)
  /-- Owns the result of a formula. -/
  | formula (m x b : VarId)
  /-- Ties two variables together. -/
  | makeEqual (this that : VarId) (offset : Affine α)
  /-- Takes two variables apart. -/
  | breakOff (this that : VarId)
  /-- Locks a group. -/
  | lock (id : VarId) (value : Option α) (scrub : Bool)
  /-- Unlocks a group. -/
  | unlock (id : VarId)
  /-- Locks an unlocked variable, unlocks a locked one. -/
  | toggleLock (id : VarId)
  /-- Builds the clustering. -/
  | cluster
  /-- Tunes the standard minimizer. -/
  | setConfig (config : Config α)
  /-- Turns the stabilisation of gizmos on or off. -/
  | setStabilizeGizmos (enabled : Bool)
  /-- Turns finger-of-god mode on or off. -/
  | setFingerOfGod (enabled : Bool)

/-- What an operation answers. -/
inductive Answer (α : Type) where
  /-- That it was done. -/
  | done
  /-- The identifier of a variable. -/
  | variableId (id : VarId)
  /-- The identifier of a handle. -/
  | handleId (id : HandleId)
  /-- The identifier of a constraint. -/
  | constraintId (id : ConstraintId)
  /-- Yes or no. -/
  | flag (value : Bool)
  /-- The present clustering. -/
  | clusters (clusters : List (Cluster α))

namespace Operation

variable {α : Type} [Scalar α]

/-- Performs an operation. -/
def perform : Operation α → Edit α (Answer α)
  | .addVariable value label =>
    .variableId <$> modifyGet (Sketch.addVariable value (label.map .label))
  | .addHandle position => .handleId <$> modifyGet (Sketch.addHandle position)
  | .setValue id value => do
    Sketch.setValue id value
    return .done
  | .moveHandle id position => do
    Sketch.moveHandle id position
    return .done
  | .removeVariable id => do
    Sketch.removeVariable id
    return .done
  | .removeHandle id => do
    Sketch.removeHandle id
    return .done
  | .removeConstraint id => do
    Sketch.removeConstraint id
    return .done
  | .constant id value => .constraintId <$> Sketch.constant id value
  | .pin id position => .constraintId <$> Sketch.pin id position
  | .finger id position => .constraintId <$> Sketch.finger id position
  | .linear y m x b => .constraintId <$> Sketch.linear y m x b
  | .absorb parent child => .constraintId <$> Sketch.absorb parent child
  | .polar start finish => .constraintId <$> Sketch.polar start finish
  | .distance start finish => .constraintId <$> Sketch.distance start finish
  | .angle start finish => .constraintId <$> Sketch.angle start finish
  | .formula m x b => .constraintId <$> Sketch.formula m x b
  | .makeEqual this that offset => .constraintId <$> Sketch.makeEqual this that offset
  | .breakOff this that => do
    Sketch.breakOff this that
    return .done
  | .lock id value scrub => do
    Sketch.lock id value scrub
    return .done
  | .unlock id => do
    Sketch.unlock id
    return .done
  | .toggleLock id => .flag <$> Sketch.toggleLock id
  | .cluster => .clusters <$> Sketch.currentClusters
  | .setConfig config => do
    modify fun s => { s with config }
    return .done
  | .setStabilizeGizmos enabled => do
    modify fun s => { s with stabilizeGizmos := enabled }
    return .done
  | .setFingerOfGod enabled => do
    modify fun s => { s with fingerOfGod := enabled }
    return .done

end Operation

end SketchSolver

import SketchSolver.Handle

/-!
# Constraints

The relationships that can be placed on a sketch.  Some only tie existing variables and handles
together; others own variables that hold what they measure, and these variables live and die with
their constraint.

* `key` identifies a constraint that is re-issued rather than repeated: there is at most one
  constant per variable, one pin and one finger per handle, and so on.
* `vars`, `mentions` and `owned` say what a constraint refers to.
* `relate` performs the unifications that a constraint implies.
-/

namespace SketchSolver

/-- A relationship on a sketch. -/
inductive Constraint (α : Type) where
  /-- Locks a variable to a value. -/
  | constant (var : VarId) (value : α)
  /-- Locks a handle to a position. -/
  | pin (handle : HandleId) (position : Point α)
  /-- Drags a handle towards a position, for as long as a touch lasts. -/
  | finger (handle : HandleId) (position : Point α)
  /-- The variable `y` is `m · x + b`. -/
  | linear (y : VarId) (m : α) (x : VarId) (b : α)
  /-- Merges the second handle into the first. -/
  | absorb (parent child : HandleId)
  /-- Owns the distance and the angle of the vector between two handles. -/
  | polar (start finish : HandleId) (distance angle : VarId)
  /-- Owns the distance between two handles. -/
  | distance (start finish : HandleId) (distance : VarId)
  /-- Owns the angle of the vector between two handles. -/
  | angle (start finish : HandleId) (angle : VarId)
  /-- Owns the value of `m · x + b`, where all three are variables. -/
  | formula (m x b result : VarId)
deriving Repr, BEq

/-- What makes two constraints the same one. -/
inductive ConstraintKey where
  /-- The constant on this variable. -/
  | constant (var : VarId)
  /-- The pin on this handle. -/
  | pin (handle : HandleId)
  /-- The finger on this handle. -/
  | finger (handle : HandleId)
  /-- The linear relationship that makes `y` depend on `x`. -/
  | linear (y x : VarId)
  /-- The merge of two handles, the one with the lower number first: merging is symmetric. -/
  | absorb (lower higher : HandleId)
  /-- The polar vector between these handles. -/
  | polar (start finish : HandleId)
deriving DecidableEq, Repr

namespace Constraint

variable {α : Type}

/-- The key of a constraint; one without can be repeated freely. -/
def key : Constraint α → Option ConstraintKey
  | .constant var _ => some (.constant var)
  | .pin handle _ => some (.pin handle)
  | .finger handle _ => some (.finger handle)
  | .linear y _ x _ => some (.linear y x)
  | .absorb parent child =>
    if child.index < parent.index then some (.absorb child parent)
    else some (.absorb parent child)
  | .polar start finish _ _ => some (.polar start finish)
  | .distance .. | .angle .. | .formula .. => none

/-- The name of a constraint's kind. -/
def kind : Constraint α → String
  | .constant .. => "Constant"
  | .pin .. => "Pin"
  | .finger .. => "Finger"
  | .linear .. => "LinearRelationship"
  | .absorb .. => "Absorb"
  | .polar .. => "PolarVector"
  | .distance .. => "Distance"
  | .angle .. => "Angle"
  | .formula .. => "LinearFormula"

/-- Is this a finger, which lasts no longer than a touch? -/
def isFinger : Constraint α → Bool
  | .finger .. => true
  | _ => false

/-! ## What a constraint refers to -/

/-- The handles a constraint refers to. -/
def handles : Constraint α → List HandleId
  | .pin handle _ | .finger handle _ => [handle]
  | .absorb a b | .polar a b _ _ | .distance a b _ | .angle a b _ => [a, b]
  | .constant .. | .linear .. | .formula .. => []

/-- The variables a constraint owns, with what each of them measures. -/
def ownedQuantities : Constraint α → List (VarId × Quantity)
  | .polar _ _ length bearing => [(length, .distance), (bearing, .angle)]
  | .distance _ _ length => [(length, .distance)]
  | .angle _ _ bearing => [(bearing, .angle)]
  | .formula _ _ _ result => [(result, .result)]
  | .constant .. | .pin .. | .finger .. | .linear .. | .absorb .. => []

/-- The variables a constraint owns, and which are removed with it. -/
def owned (c : Constraint α) : List VarId :=
  c.ownedQuantities.map Prod.fst

/-- The variables a constraint refers to by name, without those it owns. -/
def inputs : Constraint α → List VarId
  | .constant var _ => [var]
  | .linear y _ x _ => [y, x]
  | .formula m x b _ => [m, x, b]
  | .pin .. | .finger .. | .absorb .. | .polar .. | .distance .. | .angle .. => []

/-- The coordinate variables of some handles, in order. -/
def coordinates (table : HandleTable) (ids : List HandleId) : Except SolverError (List VarId) := do
  let coords ← ids.mapM table.coords
  return coords.flatMap fun c => [c.x, c.y]

/-- Every variable a constraint refers to: the coordinates of its handles, the variables it
names, and those it owns. -/
def vars (c : Constraint α) (table : HandleTable) : Except SolverError (List VarId) := do
  return (← coordinates table c.handles) ++ c.inputs ++ c.owned

/-- Does a constraint refer to a variable, directly or through a handle? -/
def mentions (c : Constraint α) (table : HandleTable) (var : VarId) : Bool :=
  (c.handles.any fun id => (table.get? id).any fun h => h.owns var) ||
    (c.inputs ++ c.owned).contains var

/-! ## The unifications a constraint implies -/

/-- Unifies the variables, and merges the handles, that a constraint makes equal. -/
def relate [Scalar α] (c : Constraint α) (a : Arena α) (table : HandleTable) :
    Except SolverError (Arena α × HandleTable) :=
  match c with
  | .linear y m x b => do
    let (_, a) ← a.unify y x ⟨m, b⟩
    return (a, table)
  | .absorb parent child => do
    let p ← table.coords parent
    let c ← table.coords child
    let (_, a) ← a.unify p.x c.x .identity
    let (_, a) ← a.unify p.y c.y .identity
    return (a, ← table.absorb parent child)
  | .constant .. | .pin .. | .finger .. | .polar .. | .distance .. | .angle .. | .formula .. =>
    .ok (a, table)

end Constraint

end SketchSolver

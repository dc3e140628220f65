import SketchSolver.Constraint.Residual

/-!
# Clusters

A cluster is a group of constraints that share no variable with any constraint outside it.  It is
a problem of its own: solving it reads and writes its own variables only.

* `vars` are the canonical variables of everything the constraints refer to; two clusters
  belong together when they overlap in one (`overlaps`).
* `merge` takes over another cluster, residual by residual.
* `free` and `parameters` are what a solve has to determine: a free variable is computed by its
  owner, the parameters are searched for.
-/

namespace SketchSolver

/-- The constraints of a sketch, in order of creation. -/
abbrev ConstraintTable (α : Type) := OrderedMap ConstraintId (Constraint α)

/-- The constraint with this identifier, or the error that there is none. -/
def ConstraintTable.find {α : Type} (constraints : ConstraintTable α) (id : ConstraintId) :
    Except SolverError (Constraint α) :=
  match constraints.get? id with
  | some c => .ok c
  | none => .error (.constraintNotFound id)

/-- A group of constraints that shares no variable with any other group. -/
structure Cluster (α : Type) where
  /-- The constraints, by identifier. -/
  constraints : List ConstraintId
  /-- The residuals they contribute. -/
  residuals : List (Residual α)
  /-- Every variable the constraints refer to, as they write it. -/
  referenced : List VarId
  /-- The canonical variables of what they refer to. -/
  vars : OrderedSet VarId

namespace Cluster

variable {α : Type}

/-- Do two clusters have a variable in common? -/
def overlaps (c d : Cluster α) : Bool :=
  !c.vars.isDisjoint d.vars

/-- Points the fingers on a point somewhere else.  This changes no variable, so clusters stay as
they are. -/
def moveFinger (point : Coords) (position : Point α) (c : Cluster α) : Cluster α :=
  { c with residuals := c.residuals.map (·.moveFinger point position) }

variable [Scalar α]

/-- Looks up the canonical variables again. -/
def recompute (arena : Arena α) (c : Cluster α) : Cluster α :=
  { c with vars := .ofList (c.referenced.map arena.canonical) }

/-- The cluster of a single constraint. -/
def ofConstraint (table : HandleTable) (arena : Arena α) (id : ConstraintId) (c : Constraint α) :
    Except SolverError (Cluster α × Arena α) := do
  let referenced ← c.vars table
  let (residuals, arena) ← Residual.addAllTo [] arena (← Residual.ofConstraint table c)
  return (recompute arena ⟨[id], residuals, referenced, .empty⟩, arena)

/-- Takes over another cluster.  Residuals that relate the same points become one, which may unify
variables. -/
def merge (arena : Arena α) (c d : Cluster α) : Except SolverError (Cluster α × Arena α) := do
  let (residuals, arena) ← Residual.addAllTo c.residuals arena d.residuals
  let constraints := c.constraints ++ d.constraints
  let referenced := c.referenced ++ d.referenced
  return (recompute arena ⟨constraints, residuals, referenced, .empty⟩, arena)

/-- Takes over several clusters, one after the other. -/
def mergeAll (arena : Arena α) (c : Cluster α) (ds : List (Cluster α)) :
    Except SolverError (Cluster α × Arena α) :=
  ds.foldlM (fun (c, arena) d => merge arena c d) (c, arena)

/-! ## What a solve has to determine -/

/-- How many residuals refer to a canonical variable. -/
def references (arena : Arena α) (c : Cluster α) (v : VarId) : Nat :=
  c.residuals.countP fun r => (r.vars.map arena.canonical).contains v

/-- The owned variables that are not known and that nothing but their owner refers to.  Their
owner computes them exactly, and the minimizer never sees them. -/
def free (c : Cluster α) (k : KnownArena α) : OrderedSet VarId :=
  .ofList (((c.residuals.filterMap Residual.owned).map k.arena.canonical).filter fun v =>
    !k.isKnown v && c.references k.arena v = 1)

/-- What the minimizer searches for: canonical variables that are neither known nor free. -/
def parameters (c : Cluster α) (k : KnownArena α) (free : OrderedSet VarId) : List VarId :=
  c.vars.toList.filter fun v => !k.isKnown v && !free.contains v

end Cluster

end SketchSolver

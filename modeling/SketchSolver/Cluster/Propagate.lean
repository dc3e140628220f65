import SketchSolver.Cluster

/-!
# What is known before the search

Values that follow directly are computed by passes over a cluster: first every constraint has its
turn, then every residual.  Passes are repeated until one of them learns nothing.  Knowns only
ever grow, and only by canonical variables, so this ends.
-/

namespace SketchSolver

namespace Cluster

variable {α : Type} [Scalar α]

/-- Runs steps that each answer whether they learned something; answers whether any of them
did. -/
def learnAll {β : Type} (step : β → KnownArena α → Except SolverError (Bool × KnownArena α))
    (items : List β) (k : KnownArena α) : Except SolverError (Bool × KnownArena α) :=
  items.foldlM
    (fun (changed, k) item => do
      let (learned, k) ← step item k
      return (changed || learned, k))
    (false, k)

/-- Gives every constraint a chance to mark variables known, then every residual.  Answers whether
anything became known. -/
def pass (c : Cluster α) (constraints : ConstraintTable α) (table : HandleTable)
    (fingerOfGod : Bool) (k : KnownArena α) : Except SolverError (Bool × KnownArena α) := do
  let (fromConstraints, k) ← learnAll
    (fun id k => do (← constraints.find id).propagate table k) c.constraints k
  let (fromResiduals, k) ← learnAll (fun r k => r.propagate fingerOfGod k) c.residuals k
  return (fromConstraints || fromResiduals, k)

/-- Repeats passes until one learns nothing, at most `limit` times. -/
def propagateWithin (c : Cluster α) (constraints : ConstraintTable α) (table : HandleTable)
    (fingerOfGod : Bool) : Nat → KnownArena α → Except SolverError (KnownArena α)
  | 0, k => .ok k
  | limit + 1, k => do
    let (changed, k) ← c.pass constraints table fingerOfGod k
    if changed then
      c.propagateWithin constraints table fingerOfGod limit k
    else
      return k

/-- Everything that follows from the constraints, the values and what is known already. -/
def propagate (c : Cluster α) (constraints : ConstraintTable α) (table : HandleTable)
    (fingerOfGod : Bool) (k : KnownArena α) : Except SolverError (KnownArena α) :=
  c.propagateWithin constraints table fingerOfGod (k.arena.size + 1) k

/-- What is known from the start when gizmos are stabilised: every polar vector of which neither
end is under a finger keeps its length and its angle, so that it moves as a rigid rod. -/
def gizmoKnowns (c : Cluster α) (constraints : ConstraintTable α) (table : HandleTable)
    (arena : Arena α) : Except SolverError Knowns := do
  let cs ← c.constraints.mapM constraints.find
  let fingered := cs.filterMap fun
    | .finger handle _ => some handle
    | _ => none
  let rods := cs.filterMap fun
    | .polar start finish length bearing => some (start, finish, length, bearing)
    | _ => none
  rods.foldlM
    (fun knowns (start, finish, length, bearing) => do
      let touched ← fingered.anyM fun f => do
        return (← table.equals arena start f) || (← table.equals arena finish f)
      if touched then
        return knowns
      else
        return (knowns.insert (arena.canonical length)).insert (arena.canonical bearing))
    .empty

end Cluster

end SketchSolver

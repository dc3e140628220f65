import SketchSolver.Sketch

/-!
# Removing from a sketch

Nothing may refer to what is gone, so a removal takes everything with it that depends on what is
removed: a variable takes the constraints that mention it, a constraint takes the variables it
owns, a coordinate takes its handle, and a handle takes its coordinates.

`cascade` removes a constraint with all that follows.  Each of its steps removes one constraint,
so there are no more steps than constraints.  Removals that follow never fail; only the first one
can, when there is nothing to remove.
-/

namespace SketchSolver

namespace Sketch

variable {α : Type}

/-- The constraints that mention one of some variables, in order. -/
def dependents (s : Sketch α) (vars : List VarId) : List ConstraintId :=
  (s.constraints.entries.filter fun e => vars.any (e.2.mentions s.handles)).map Prod.fst

/-- Removes a constraint alone. -/
def dropConstraint (id : ConstraintId) (s : Sketch α) : Sketch α :=
  { s with
    constraints := s.constraints.erase id
    memo := s.memo.filter fun _ known => !decide (known = id)
    clusters := none }

/-- Removes a handle and its coordinates, and then, with `cut`, the constraints that mention
them. -/
def dropHandle (cut : ConstraintId → Sketch α → Sketch α) (id : HandleId) (s : Sketch α) :
    Sketch α :=
  match s.handles.get? id with
  | none => s
  | some h =>
    let rest : Sketch α :=
      { s with
        handles := s.handles.remove id
        arena := (s.arena.remove h.x).remove h.y
        clusters := none }
    (s.dependents [h.x, h.y]).foldl (fun s id => cut id s) rest

/-- Removes a variable, and then, with `cut`, the constraints that mention it.  A coordinate is
removed with its handle. -/
def dropVariable (cut : ConstraintId → Sketch α → Sketch α) (id : VarId) (s : Sketch α) :
    Sketch α :=
  match s.handles.ownerOf id with
  | some handle => dropHandle cut handle s
  | none =>
    let rest : Sketch α := { s with arena := s.arena.remove id, clusters := none }
    (s.dependents [id]).foldl (fun s id => cut id s) rest

/-- Removes a constraint with all that follows, in at most `limit` steps; nothing if it is gone
already. -/
def cascade : Nat → ConstraintId → Sketch α → Sketch α
  | 0, _, s => s
  | limit + 1, id, s =>
    match s.constraints.get? id with
    | none => s
    | some c =>
      c.owned.foldl
        (fun s own => if s.arena.contains own then dropVariable (cascade limit) own s else s)
        (dropConstraint id s)

/-- Removes a constraint with all that follows; nothing if it is gone already. -/
def cut (id : ConstraintId) (s : Sketch α) : Sketch α :=
  s.cascade s.constraints.size id

/-- Removes a constraint, the variables it owns, and everything that mentions those. -/
def removeConstraint (id : ConstraintId) : Edit α Unit := do
  let s ← get
  discard (Edit.ofExcept (s.constraints.find id))
  set (s.cut id)

/-- Removes a variable and everything that mentions it; of a coordinate, the whole handle. -/
def removeVariable (id : VarId) : Edit α Unit := do
  let s ← get
  discard (Edit.ofExcept (s.arena.find id))
  set (s.dropVariable (cascade s.constraints.size) id)

/-- Removes a handle, its coordinates, and everything that mentions them. -/
def removeHandle (id : HandleId) : Edit α Unit := do
  let s ← get
  discard (Edit.ofExcept (s.handles.find id))
  set (s.dropHandle (cascade s.constraints.size) id)

end Sketch

end SketchSolver

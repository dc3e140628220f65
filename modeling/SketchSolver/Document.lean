import SketchSolver.Sketch.Solve

/-!
# Saved sketches

A `Document` is what is worth saving of a sketch: the variables with their values, the handles,
and the constraints except fingers.  Unifications follow from the constraints and are made again
when the document is loaded.

Loading goes through the variables, the handles and the constraints, in this order, and fails at
the first identifier that is used twice or that has not been loaded before.
-/

namespace SketchSolver

/-- A variable in a saved sketch. -/
structure SavedVariable (α : Type) where
  /-- Its identifier. -/
  id : VarId
  /-- Its value. -/
  value : α
deriving Repr

/-- A handle in a saved sketch. -/
structure SavedHandle where
  /-- Its identifier. -/
  id : HandleId
  /-- The variable of its horizontal coordinate. -/
  x : VarId
  /-- The variable of its vertical coordinate. -/
  y : VarId
deriving DecidableEq, Repr

/-- A constraint in a saved sketch. -/
structure SavedConstraint (α : Type) where
  /-- Its identifier. -/
  id : ConstraintId
  /-- The constraint itself. -/
  constraint : Constraint α
deriving Repr

/-- A saved sketch. -/
structure Document (α : Type) where
  /-- The variables, in order. -/
  vars : List (SavedVariable α)
  /-- The handles, in order. -/
  handles : List SavedHandle
  /-- The constraints, in order. -/
  constraints : List (SavedConstraint α)
deriving Repr

namespace Document

variable {α : Type}

/-- What is worth saving of a sketch. -/
def ofSketch (s : Sketch α) : Document α where
  vars := s.arena.vars.entries.map fun (id, v) => ⟨id, v.value⟩
  handles := s.handles.handles.entries.map fun (id, h) => ⟨id, h.x, h.y⟩
  constraints := (s.constraints.entries.filter fun (_, c) => !c.isFinger).map fun (id, c) => ⟨id, c⟩

/-- Makes an identifier unavailable. -/
def observe (index : Nat) (s : Sketch α) : Sketch α :=
  { s with ids := s.ids.observe index }

/-- Loads a variable. -/
def addVariable (s : Sketch α) (v : SavedVariable α) : Except SolverError (Sketch α) :=
  if s.arena.contains v.id then
    .error (.duplicateId v.id.index)
  else
    .ok (observe v.id.index { s with arena := s.arena.insert v.id v.value none })

/-- Says what a loaded variable stands for.  Its value stays, and so does its place. -/
def represent (id : VarId) (what : Represents) (s : Sketch α) : Except SolverError (Sketch α) := do
  let value ← s.arena.value id
  return { s with arena := s.arena.insert id value (some what) }

/-- Loads a handle. -/
def addHandle (s : Sketch α) (h : SavedHandle) : Except SolverError (Sketch α) :=
  if s.handles.contains h.id then
    .error (.duplicateId h.id.index)
  else do
    let s ← represent h.x (.coordinate h.id .x) s
    let s ← represent h.y (.coordinate h.id .y) s
    return observe h.id.index { s with handles := s.handles.insert h.id h.x h.y }

variable [Scalar α]

/-- Loads a constraint. -/
def addConstraint (s : Sketch α) (c : SavedConstraint α) : Except SolverError (Sketch α) :=
  if s.constraints.contains c.id then
    .error (.duplicateId c.id.index)
  else do
    let s ← c.constraint.ownedQuantities.foldlM
      (fun s (id, quantity) => represent id (.quantity c.id quantity) s) s
    match (Sketch.insertConstraint (some c.id) c.constraint).run s with
    | .ok _ s => return observe c.id.index s
    | .error e _ => throw e

/-- The sketch that was saved. -/
def toSketch (d : Document α) : Except SolverError (Sketch α) := do
  let s ← d.vars.foldlM addVariable Sketch.empty
  let s ← d.handles.foldlM addHandle s
  d.constraints.foldlM addConstraint s

end Document

end SketchSolver

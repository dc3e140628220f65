import SketchSolver.Sketch

/-!
# Adding to a sketch

Variables, handles and constraints.  A constraint is checked before anything changes: whatever it
refers to must exist.  If a constraint with the same key is there already, it is updated in its
place, and the clustering survives unless the update may change which variables belong together.

New relationships take effect at once: values follow before anything is solved.
-/

namespace SketchSolver

namespace Sketch

variable {α : Type}

/-! ## Variables and handles -/

/-- Adds a variable. -/
def addVariable (value : α) (represents : Option Represents) (s : Sketch α) : VarId × Sketch α :=
  let (index, ids) := s.ids.fresh
  (⟨index⟩, { s with ids, arena := s.arena.insert ⟨index⟩ value represents, clusters := none })

/-- Adds a handle at a position: its own identifier first, then one for each coordinate. -/
def addHandle (position : Point α) (s : Sketch α) : HandleId × Sketch α :=
  let (index, ids) := s.ids.fresh
  let id : HandleId := ⟨index⟩
  let (x, s) := addVariable position.x (some (.coordinate id .x)) { s with ids }
  let (y, s) := addVariable position.y (some (.coordinate id .y)) s
  (id, { s with handles := s.handles.insert id x y })

variable [Scalar α]

/-- Sets a variable; everything unified with it follows. -/
def setValue (id : VarId) (value : α) : Edit α Unit :=
  Edit.onArena (·.setValue id value)

/-- Moves a handle, one coordinate after the other, without adding a constraint. -/
def moveHandle (id : HandleId) (position : Point α) : Edit α Unit := do
  let c ← Edit.ofExcept ((← get).handles.coords id)
  setValue c.x position.x
  setValue c.y position.y

/-! ## Constraints -/

/-- Checks that everything a constraint refers to exists. -/
def checkReferences (s : Sketch α) (c : Constraint α) : Except SolverError Unit := do
  (← c.vars s.handles).forM fun id => discard (s.arena.find id)

/-- Makes the unifications that a constraint implies. -/
def relate (c : Constraint α) : Edit α Unit := do
  let s ← get
  let (arena, handles) ← Edit.ofExcept (c.relate s.arena s.handles)
  set { s with arena, handles }

/-- Does replacing the first constraint by the second, of the same key, leave everything else as
it is?  So it does if both are equal, and for constants and pins, whose values are only read when
solving. -/
def isQuietUpdate (old new : Constraint α) : Bool :=
  old == new ||
    match old, new with
    | .constant .., .constant .. => true
    | .pin .., .pin .. => true
    | _, _ => false

/-- Draws the consequences of replacing a constraint by another one of the same key.  Moving a
finger keeps the clustering, with the finger moved in it. -/
def settleUpdate (old new : Constraint α) : Edit α Unit := do
  if isQuietUpdate old new then
    return
  match old, new with
  | .finger .., .finger handle position =>
    let s ← get
    if let some clusters := s.clusters then
      let point ← Edit.ofExcept (s.handles.coords handle)
      set { s with clusters := some (clusters.map (Cluster.moveFinger point position)) }
  | _, _ =>
    relate new
    modify invalidate

/-- The constraint that has the same key as this one, with its identifier. -/
def sameKey (s : Sketch α) (c : Constraint α) : Option (ConstraintId × Constraint α) := do
  let id ← s.memo.get? (← c.key)
  return (id, ← s.constraints.get? id)

/-- Adds a constraint, under a given identifier or a new one, or updates the one with the same
key. -/
def insertConstraint (id : Option ConstraintId) (c : Constraint α) : Edit α ConstraintId := do
  let s ← get
  Edit.ofExcept (s.checkReferences c)
  match s.sameKey c with
  | some (existing, old) =>
    set { s with constraints := s.constraints.insert existing c }
    settleUpdate old c
    return existing
  | none =>
    let (id, ids) :=
      match id with
      | some id => (id, s.ids)
      | none => (⟨s.ids.next⟩, s.ids.fresh.2)
    let memo :=
      match c.key with
      | some key => s.memo.insert key id
      | none => s.memo
    set { s with ids, memo, constraints := s.constraints.insert id c }
    relate c
    modify invalidate
    return id

/-- Locks a variable to a value. -/
def constant (id : VarId) (value : α) : Edit α ConstraintId :=
  insertConstraint none (.constant id value)

/-- Locks a handle to a position. -/
def pin (id : HandleId) (position : Point α) : Edit α ConstraintId :=
  insertConstraint none (.pin id position)

/-- Starts dragging a handle, or goes on dragging it. -/
def finger (id : HandleId) (position : Point α) : Edit α ConstraintId :=
  insertConstraint none (.finger id position)

/-- Makes `y` equal to `m · x + b`. -/
def linear (y : VarId) (m : α) (x : VarId) (b : α) : Edit α ConstraintId :=
  insertConstraint none (.linear y m x b)

/-- Merges the second handle into the first. -/
def absorb (parent child : HandleId) : Edit α ConstraintId :=
  insertConstraint none (.absorb parent child)

/-! ## Constraints that own variables -/

/-- Takes an identifier for a constraint that is about to be added. -/
def reserve : Edit α ConstraintId :=
  modifyGet fun s => (⟨s.ids.next⟩, { s with ids := s.ids.fresh.2 })

/-- Adds a variable that a constraint will own. -/
def own (id : ConstraintId) (quantity : Quantity) (value : α) : Edit α VarId :=
  modifyGet (addVariable value (some (.quantity id quantity)))

/-- Owns the distance and the angle of the vector between two handles, at their present values.
The polar vector of a pair that has one already is that one. -/
def polar (start finish : HandleId) : Edit α ConstraintId := do
  let s ← get
  discard (Edit.ofExcept (s.handles.find start))
  discard (Edit.ofExcept (s.handles.find finish))
  match s.memo.get? (.polar start finish) with
  | some existing => return existing
  | none =>
    let p ← Edit.ofExcept (s.position start)
    let q ← Edit.ofExcept (s.position finish)
    let id ← reserve
    let length ← own id .distance (p.distance q)
    let bearing ← own id .angle (angleBetween p q 0)
    insertConstraint (some id) (.polar start finish length bearing)

/-- Owns the distance between two handles, at its present value. -/
def distance (start finish : HandleId) : Edit α ConstraintId := do
  let s ← get
  let p ← Edit.ofExcept (s.position start)
  let q ← Edit.ofExcept (s.position finish)
  let id ← reserve
  let length ← own id .distance (p.distance q)
  insertConstraint (some id) (.distance start finish length)

/-- Owns the angle of the vector between two handles, at its present value. -/
def angle (start finish : HandleId) : Edit α ConstraintId := do
  let s ← get
  let p ← Edit.ofExcept (s.position start)
  let q ← Edit.ofExcept (s.position finish)
  let id ← reserve
  let bearing ← own id .angle (angleBetween p q 0)
  insertConstraint (some id) (.angle start finish bearing)

/-- Owns the value of `m · x + b`, at its present value. -/
def formula (m x b : VarId) : Edit α ConstraintId := do
  let s ← get
  let value ← Edit.ofExcept (Residual.formulaValue s.arena m x b)
  let id ← reserve
  let result ← own id .result value
  insertConstraint (some id) (.formula m x b result)

end Sketch

end SketchSolver

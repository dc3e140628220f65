import SketchSolver.Sketch.Edit
import SketchSolver.Sketch.Remove

/-!
# Unifying and locking

`makeEqual` ties two variables together and `breakOff` takes them apart.  Locking acts on whole
unification groups: a lock puts a constant on every member, and unlocking removes them all.
-/

namespace SketchSolver

namespace Sketch

variable {α : Type} [Scalar α]

/-! ## Locking -/

/-- Puts a constant on a variable, at its present value. -/
def holdHere (id : VarId) : Edit α Unit := do
  let value ← Edit.ofExcept ((← get).arena.value id)
  discard (constant id value)

/-- Removes the constant of a variable, if it has one. -/
def release (id : VarId) : Edit α Unit := do
  if let some constant := (← get).memo.get? (.constant id) then
    removeConstraint constant

/-- Locks a variable, after setting it if a value is given.  Its canonical variable gets a
constant, and so does everything absorbed there, unless the lock only scrubs through values. -/
def lock (id : VarId) (value : Option α) (scrub : Bool) : Edit α Unit := do
  if let some value := value then
    setValue id value
  let s ← get
  let canonical ← Edit.ofExcept (s.canonical id)
  let members := if scrub then [] else s.arena.absorbedMembers canonical
  (canonical :: members).forM holdHere

/-- Removes every constant from the group of a variable. -/
def unlock (id : VarId) : Edit α Unit := do
  let s ← get
  let canonical ← Edit.ofExcept (s.canonical id)
  (id :: canonical :: s.arena.absorbedMembers canonical).forM release

/-- Locks a variable that has no constant of its own, unlocks one that has.  Answers whether it
is locked now. -/
def toggleLock (id : VarId) : Edit α Bool := do
  if ← Edit.ofExcept ((← get).isLocked id) then
    unlock id
    return false
  else
    lock id none false
    return true

/-! ## Unifying -/

/-- Makes `this` equal to `offset` applied to `that`.  If one of them was locked, the merged group
ends up locked, at the value of the locked one, and at that of `this` if both were. -/
def makeEqual (this that : VarId) (offset : Affine α) : Edit α ConstraintId := do
  let s ← get
  let thisLocked ← Edit.ofExcept (s.isLocked this)
  let thatLocked ← Edit.ofExcept (s.isLocked that)
  let thatValue ← Edit.ofExcept (s.arena.value that)
  let id ← linear this offset.scale that offset.shift
  if thatLocked && !thisLocked then
    setValue that thatValue
  if thisLocked || thatLocked then
    lock this none false
  return id

/-- Does a constraint join these two variables directly?  A linear relationship joins the
variables it names; a merge of two handles joins any coordinate of one to any of the other. -/
def joins (s : Sketch α) (this that : VarId) (c : Constraint α) : Bool :=
  match c with
  | .linear y _ x _ => (y = this && x = that) || (y = that && x = this)
  | .absorb parent child =>
    let owners := (s.handles.ownerOf this, s.handles.ownerOf that)
    (some parent, some child) = owners || (some child, some parent) = owners
  | _ => false

/-- The constraints that join two variables directly, in order. -/
def joining (s : Sketch α) (this that : VarId) : List ConstraintId :=
  (s.constraints.entries.filter fun e => s.joins this that e.2).map Prod.fst

/-- Takes two variables apart and removes the constraints that join them directly.  If they share
a canonical variable, one of them leaves the group: the one that is not canonical, and `that` if
neither is. -/
def breakOff (this that : VarId) : Edit α Unit := do
  let s ← get
  discard (Edit.ofExcept (s.arena.find this))
  discard (Edit.ofExcept (s.arena.find that))
  let canonical := s.arena.canonical this
  if canonical = s.arena.canonical that then
    set { s with arena := s.arena.detach (if canonical = that then this else that) }
  (s.joining this that).forM removeConstraint
  modify invalidate

end Sketch

end SketchSolver

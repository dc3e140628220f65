import SketchSolver.Constraint.AngleResidual
import SketchSolver.Known

/-!
# Residuals

What the minimizer sees of the constraints: each residual is one number that should be zero.

* `ofConstraint` breaks a constraint into residuals.
* `addTo` collects residuals.  Two that relate the same points are one: their owned variables are
  unified instead, so that a relationship counts once however often it was stated.
* `propagate` computes what a residual owns from known inputs, before the search.
* `error` is the residual at the present values.  If the owned variable is *free*, that is, if
  nothing else refers to it, it takes its exact value and the residual vanishes.
-/

namespace SketchSolver

/-- One term of the objective of a cluster. -/
inductive Residual (α : Type) where
  /-- Drags a point towards a position. -/
  | finger (point : Coords) (position : Point α)
  /-- Owns the distance between two points. -/
  | distance (a b : Coords) (distance : VarId)
  /-- Owns the angle of the vector from the first point to the second. -/
  | angle (a b : Coords) (angle : VarId)
  /-- Owns the value of `m · x + b`. -/
  | formula (m x b result : VarId)
deriving Repr

namespace Residual

variable {α : Type}

/-- Every variable a residual reads or writes, the owned one first. -/
def vars : Residual α → List VarId
  | .finger point _ => [point.x, point.y]
  | .distance a b length => [length, a.x, a.y, b.x, b.y]
  | .angle a b bearing => [bearing, a.x, a.y, b.x, b.y]
  | .formula m x b result => [result, m, x, b]

/-- The variable a residual owns, if any. -/
def owned : Residual α → Option VarId
  | .finger .. => none
  | .distance _ _ length => some length
  | .angle _ _ bearing => some bearing
  | .formula _ _ _ result => some result

/-- The residuals that express a constraint. -/
def ofConstraint (table : HandleTable) : Constraint α → Except SolverError (List (Residual α))
  | .finger handle position => do
    return [.finger (← table.coords handle) position]
  | .polar start finish length bearing => do
    let a ← table.coords start
    let b ← table.coords finish
    return [.distance a b length, .angle a b bearing]
  | .distance start finish length => do
    return [.distance (← table.coords start) (← table.coords finish) length]
  | .angle start finish bearing => do
    return [.angle (← table.coords start) (← table.coords finish) bearing]
  | .formula m x b result => .ok [.formula m x b result]
  | .constant .. | .pin .. | .linear .. | .absorb .. => .ok []

/-- Moves a finger on a point to another position; leaves every other residual alone. -/
def moveFinger (point : Coords) (position : Point α) : Residual α → Residual α
  | .finger p old => .finger p (if p = point then position else old)
  | r => r

variable [Scalar α]

/-! ## Collecting -/

/-- If the first residual relates the same points as the second, the unification that makes it
redundant: the owned variable of the second, that of the first, and the map between them.  A
distance is the same in both directions, an angle differs by half a turn. -/
def clash (arena : Arena α) : Residual α → Residual α → Option (VarId × VarId × Affine α)
  | .distance a b length, .distance a' b' length' =>
    if (a'.sameAs a arena && b'.sameAs b arena) || (a'.sameAs b arena && b'.sameAs a arena) then
      some (length', length, .identity)
    else
      none
  | .angle a b bearing, .angle a' b' bearing' =>
    if a'.sameAs a arena && b'.sameAs b arena then
      some (bearing', bearing, .identity)
    else if a'.sameAs b arena && b'.sameAs a arena then
      some (bearing', bearing, ⟨1, -Scalar.pi⟩)
    else
      none
  | _, _ => none

/-- Adds a residual at the end of a list, or unifies what it owns with the first residual of the
list that relates the same points. -/
def addTo (existing : List (Residual α)) (arena : Arena α) (r : Residual α) :
    Except SolverError (List (Residual α) × Arena α) :=
  match existing.findSome? (r.clash arena) with
  | some (theirs, ours, offset) => do
    let (_, arena) ← arena.unify theirs ours offset
    return (existing, arena)
  | none => .ok (existing ++ [r], arena)

/-- Adds several residuals, one after the other. -/
def addAllTo (existing : List (Residual α)) (arena : Arena α) (rs : List (Residual α)) :
    Except SolverError (List (Residual α) × Arena α) :=
  rs.foldlM (fun (existing, arena) r => r.addTo existing arena) (existing, arena)

/-! ## Before the search -/

/-- The value of `m · x + b` at the present values. -/
def formulaValue (arena : Arena α) (m x b : VarId) : Except SolverError α := do
  return (← arena.value m) * (← arena.value x) + (← arena.value b)

/-- Computes what a residual owns, if all its inputs are known.  In finger-of-god mode a finger
puts its handle exactly where it is.  Answers whether anything became known. -/
def propagate (r : Residual α) (fingerOfGod : Bool) (k : KnownArena α) :
    Except SolverError (Bool × KnownArena α) :=
  match r with
  | .finger point position =>
    if fingerOfGod then k.markPoint point position else .ok (false, k)
  | .distance a b length =>
    if !k.isKnown length && k.isKnownPoint a && k.isKnownPoint b then do
      k.mark length ((← a.read k.arena).distance (← b.read k.arena))
    else
      .ok (false, k)
  | .angle a b bearing =>
    if !k.isKnown bearing && k.isKnownPoint a && k.isKnownPoint b then do
      let previous ← k.arena.value bearing
      k.mark bearing (angleBetween (← a.read k.arena) (← b.read k.arena) previous)
    else
      .ok (false, k)
  | .formula m x b result =>
    if !k.isKnown result && [m, x, b].all k.isKnown then do
      k.mark result (← formulaValue k.arena m x b)
    else
      .ok (false, k)

/-! ## During the search -/

/-- The residual at the present values.  A free owned variable takes its exact value. -/
def error (r : Residual α) (knowns : Knowns) (free : OrderedSet VarId) (fingerOfGod : Bool)
    (arena : Arena α) : Except SolverError (α × Arena α) :=
  let isFree (id : VarId) : Bool := free.contains (arena.canonical id)
  let isKnown (id : VarId) : Bool := knowns.contains (arena.canonical id)
  match r with
  | .finger point position =>
    if fingerOfGod then
      .ok (0, arena)
    else do
      return ((← point.read arena).distance position, arena)
  | .distance a b length => do
    let actual := (← a.read arena).distance (← b.read arena)
    if isFree length then
      return (0, ← arena.setValue length actual)
    else
      return (actual - (← arena.value length), arena)
  | .angle a b bearing => do
    let p ← a.read arena
    let q ← b.read arena
    let previous ← arena.value bearing
    if isFree bearing then
      return (0, ← arena.setValue bearing (angleBetween p q previous))
    else
      let known := ⟨isKnown a.x, isKnown a.y, isKnown b.x, isKnown b.y⟩
      return (AngleResidual.angleResidual p q previous known, arena)
  | .formula m x b result => do
    let computed ← formulaValue arena m x b
    if isFree result then
      return (0, ← arena.setValue result computed)
    else
      return (computed - (← arena.value result), arena)

end Residual

end SketchSolver

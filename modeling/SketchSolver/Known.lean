import SketchSolver.Constraint

/-!
# Known variables

Before anything is searched for, the values that follow directly are computed and their
variables marked *known*.  `Knowns` holds canonical variables, so a variable is known exactly
when its canonical variable is.

Whatever is known first is authoritative: `mark` never changes a variable that is known already.
`Constraint.propagate` is the rule of each kind of constraint.
-/

namespace SketchSolver

/-- The canonical variables whose values are fixed for the current solve. -/
abbrev Knowns := OrderedSet VarId

/-- An arena together with what is known about it so far. -/
structure KnownArena (α : Type) where
  /-- The variables and their values. -/
  arena : Arena α
  /-- Which of them are known. -/
  knowns : Knowns

namespace KnownArena

variable {α : Type} [Scalar α]

/-- Is this variable known? -/
def isKnown (k : KnownArena α) (id : VarId) : Bool :=
  k.knowns.contains (k.arena.canonical id)

/-- Are both coordinates of a point known? -/
def isKnownPoint (k : KnownArena α) (c : Coords) : Bool :=
  k.isKnown c.x && k.isKnown c.y

/-- Gives a variable a value and marks it known, unless it is known already.  Answers whether it
became known. -/
def mark (k : KnownArena α) (id : VarId) (value : α) : Except SolverError (Bool × KnownArena α) :=
  let canonical := k.arena.canonical id
  if k.knowns.contains canonical then
    .ok (false, k)
  else do
    let arena ← k.arena.setValue id value
    return (true, ⟨arena, k.knowns.insert canonical⟩)

/-- Marks both coordinates of a point known.  Answers whether one of them became known. -/
def markPoint (k : KnownArena α) (c : Coords) (p : Point α) :
    Except SolverError (Bool × KnownArena α) := do
  let (x, k) ← k.mark c.x p.x
  let (y, k) ← k.mark c.y p.y
  return (x || y, k)

end KnownArena

namespace Constraint

variable {α : Type} [Scalar α]

/-- Marks what a constraint pins down.  Answers whether anything became known.

A constant fixes its variable and a pin its handle.  A linear relationship whose scale is zero
cannot unify and fixes its dependent variable instead.  A polar vector of known length and angle
takes either end to the other. -/
def propagate (c : Constraint α) (table : HandleTable) (k : KnownArena α) :
    Except SolverError (Bool × KnownArena α) :=
  match c with
  | .constant var value => k.mark var value
  | .pin handle position => do
    k.markPoint (← table.coords handle) position
  | .linear y m _ b =>
    if (Affine.mk m b).isDegenerate then k.mark y b else .ok (false, k)
  | .polar start finish length bearing =>
    if k.isKnown length && k.isKnown bearing then do
      let a ← table.coords start
      let b ← table.coords finish
      let vector := (Point.ofAngle (← k.arena.value bearing)).scaleBy (← k.arena.value length)
      match k.isKnownPoint a, k.isKnownPoint b with
      | true, false => k.markPoint b ((← a.read k.arena) + vector)
      | false, true => k.markPoint a ((← b.read k.arena) - vector)
      | _, _ => return (false, k)
    else
      .ok (false, k)
  | .finger .. | .absorb .. | .distance .. | .angle .. | .formula .. => .ok (false, k)

end Constraint

end SketchSolver

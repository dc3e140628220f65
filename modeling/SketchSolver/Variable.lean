import SketchSolver.Affine
import SketchSolver.Ident
import SketchSolver.Ordered.Set

/-!
# Variables

A variable is a number with a name.  Variables that are known to be equal, or to differ by an
affine map, are *unified*: one of them is canonical, and the others are absorbed into it.

* `Link` says which of the two a variable is.  A canonical variable lists what it has absorbed,
  an absorbed one knows its canonical variable and the map that leads there.
* `Represents` says what a variable stands for.  The solver never looks at it.
-/

namespace SketchSolver

/-- One of the two coordinates of a handle. -/
inductive Component where
  /-- Horizontal. -/
  | x
  /-- Vertical. -/
  | y
deriving DecidableEq, Repr

/-- What an owned variable measures. -/
inductive Quantity where
  /-- Distance between two handles. -/
  | distance
  /-- Angle of the vector from one handle to another. -/
  | angle
  /-- Result of a formula. -/
  | result
deriving DecidableEq, Repr

/-- What a variable stands for. -/
inductive Represents where
  /-- A coordinate of a handle. -/
  | coordinate (handle : HandleId) (component : Component)
  /-- A quantity that a constraint owns. -/
  | quantity (constraint : ConstraintId) (quantity : Quantity)
  /-- Whatever its label says. -/
  | label (text : String)
deriving DecidableEq, Repr

/-- The place of a variable in its unification group. -/
inductive Link (α : Type) where
  /-- Stands for its group, which consists of itself and the listed variables. -/
  | canonical (members : OrderedSet VarId)
  /-- Follows another variable, whose value is the map applied to this one's value. -/
  | absorbed (into : VarId) (offset : Affine α)

namespace Link

variable {α : Type}

/-- The link of a variable that is unified with nothing. -/
def alone : Link α := .canonical .empty

/-- The variables listed as absorbed. -/
def members : Link α → OrderedSet VarId
  | .canonical ids => ids
  | .absorbed _ _ => .empty

/-- Applies a change to the list of absorbed variables, if there is one. -/
def updateMembers (f : OrderedSet VarId → OrderedSet VarId) : Link α → Link α
  | .canonical ids => .canonical (f ids)
  | .absorbed into offset => .absorbed into offset

/-- Does the variable follow another one? -/
def isAbsorbed : Link α → Bool
  | .canonical _ => false
  | .absorbed _ _ => true

end Link

/-- A number with a name. -/
structure Variable (α : Type) where
  /-- Current value. -/
  value : α
  /-- What it stands for, if anyone said. -/
  represents : Option Represents
  /-- Its place in its unification group. -/
  link : Link α

namespace Variable

variable {α : Type}

/-- A variable that is unified with nothing. -/
def fresh (value : α) (represents : Option Represents) : Variable α :=
  ⟨value, represents, .alone⟩

/-- Does the variable follow another one? -/
def isAbsorbed (v : Variable α) : Bool :=
  v.link.isAbsorbed

end Variable

end SketchSolver

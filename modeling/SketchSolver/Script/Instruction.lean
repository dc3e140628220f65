import SketchSolver.Plane

/-!
# Instructions of a sketch file

A sketch file is a list of instructions, one a line.  They name things by `Label`s, and scalar
variables by a `VarRef`: a label of its own, or the label of a handle or polar vector with the
`Property` that is meant, as in `a.x` or `rod.angle`.
-/

namespace SketchSolver

/-- The name of a handle, a variable or a constraint. -/
structure Label where
  /-- The name as it is written. -/
  text : String
deriving DecidableEq, Repr, Inhabited

/-- A quantity of something that has several. -/
inductive Property where
  /-- The horizontal coordinate of a handle. -/
  | x
  /-- The vertical coordinate of a handle. -/
  | y
  /-- The length of a polar vector. -/
  | distance
  /-- The angle of a polar vector. -/
  | angle
deriving DecidableEq, Repr

/-- The name of a property. -/
def Property.name : Property → String
  | .x => "x"
  | .y => "y"
  | .distance => "distance"
  | .angle => "angle"

/-- What a file calls a scalar variable. -/
structure VarRef where
  /-- What it belongs to, or its own name. -/
  label : Label
  /-- Which quantity of that is meant, if it has several. -/
  property : Option Property := none
deriving DecidableEq, Repr

/-- The written form of a reference. -/
def VarRef.name (r : VarRef) : String :=
  match r.property with
  | some p => r.label.text ++ "." ++ p.name
  | none => r.label.text

/-- One line of a sketch file. -/
inductive Instruction (α : Type) where
  /-- Declares a handle. -/
  | handle (label : Label) (position : Point α)
  /-- Declares a variable. -/
  | var (label : Label) (value : α)
  /-- Pins a handle, where it is if no position is given. -/
  | pin (handle : Label) (position : Option (Point α))
  /-- Drags a handle. -/
  | finger (handle : Label) (position : Point α)
  /-- Merges the second handle into the first. -/
  | absorb (parent child : Label)
  /-- Declares a polar vector between two handles. -/
  | polar (label start finish : Label)
  /-- Declares the distance between two handles. -/
  | distance (label start finish : Label)
  /-- Declares the angle of the vector between two handles. -/
  | angle (label start finish : Label)
  /-- Makes `y` equal to `m · x + b`. -/
  | linear (y : VarRef) (m : α) (x : VarRef) (b : α)
  /-- Declares the value of `m · x + b`. -/
  | formula (label : Label) (m x b : VarRef)
  /-- Locks a variable, where it is if no value is given. -/
  | lock (target : VarRef) (value : Option α)
deriving Repr

/-- The word an instruction begins with. -/
def Instruction.keyword {α : Type} : Instruction α → String
  | .handle .. => "handle"
  | .var .. => "var"
  | .pin .. => "pin"
  | .finger .. => "finger"
  | .absorb .. => "absorb"
  | .polar .. => "polar"
  | .distance .. => "distance"
  | .angle .. => "angle"
  | .linear .. => "linear"
  | .formula .. => "formula"
  | .lock .. => "lock"

end SketchSolver

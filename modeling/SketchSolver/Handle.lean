import SketchSolver.Arena
import SketchSolver.Plane

/-!
# Handles

A handle is a point that can be dragged: two coordinate variables, and a record of the handles it
was merged with.  The record is flat, like unification: a handle that was absorbed names its root
(`into`), and a root lists everything it has absorbed.
-/

namespace SketchSolver

/-- A draggable point. -/
structure Handle where
  /-- The variable of its horizontal coordinate. -/
  x : VarId
  /-- The variable of its vertical coordinate. -/
  y : VarId
  /-- The handles merged into this one. -/
  absorbed : OrderedSet HandleId := .empty
  /-- The handle this one was merged into. -/
  into : Option HandleId := none

namespace Handle

/-- The variable of a coordinate. -/
def coordinate (h : Handle) : Component → VarId
  | .x => h.x
  | .y => h.y

/-- Is this variable one of the coordinates? -/
def owns (h : Handle) (var : VarId) : Bool :=
  h.x = var || h.y = var

end Handle

/-- All handles of a sketch. -/
@[ext]
structure HandleTable where
  /-- The handles, in order of creation. -/
  handles : OrderedMap HandleId Handle

namespace HandleTable

/-- The table without handles. -/
def empty : HandleTable := ⟨.empty⟩

instance : Inhabited HandleTable := ⟨empty⟩

/-- The identifiers of the handles, in order of creation. -/
def ids (t : HandleTable) : List HandleId :=
  t.handles.keys

/-- The handle with this identifier. -/
def get? (t : HandleTable) (id : HandleId) : Option Handle :=
  t.handles.get? id

/-- Is there a handle with this identifier? -/
def contains (t : HandleTable) (id : HandleId) : Bool :=
  t.handles.contains id

/-- The handle with this identifier, or the error that there is none. -/
def find (t : HandleTable) (id : HandleId) : Except SolverError Handle :=
  match t.get? id with
  | some h => .ok h
  | none => .error (.handleNotFound id)

/-- Adds a handle with these coordinates, merged with nothing. -/
def insert (t : HandleTable) (id : HandleId) (x y : VarId) : HandleTable :=
  ⟨t.handles.insert id { x, y }⟩

/-- Changes one handle, if it is present. -/
def modify (t : HandleTable) (id : HandleId) (f : Handle → Handle) : HandleTable :=
  ⟨t.handles.modify id f⟩

/-- Removes a handle; every other handle forgets it. -/
def remove (t : HandleTable) (id : HandleId) : HandleTable :=
  ⟨(t.handles.erase id).mapValues fun h =>
    { h with
      absorbed := h.absorbed.erase id
      into := if h.into = some id then none else h.into }⟩

/-- The first handle that has this variable as a coordinate. -/
def ownerOf (t : HandleTable) (var : VarId) : Option HandleId :=
  (t.handles.entries.find? fun e => e.2.owns var).map Prod.fst

/-- Do two handles denote the same point, that is, are both coordinates equal? -/
def equals {α : Type} [Scalar α] (t : HandleTable) (a : Arena α) (this that : HandleId) :
    Except SolverError Bool := do
  let this ← t.find this
  let that ← t.find that
  return a.equals this.x that.x && a.equals this.y that.y

/-! ## Merging -/

/-- Forgets every merge. -/
def reset (t : HandleTable) : HandleTable :=
  ⟨t.handles.mapValues fun h => { h with absorbed := .empty, into := none }⟩

/-- Follows `into` at most `limit` times. -/
def rootWithin (t : HandleTable) : Nat → HandleId → Except SolverError HandleId
  | 0, id => .ok id
  | limit + 1, id => do
    match (← t.find id).into with
    | none => return id
    | some next => t.rootWithin limit next

/-- The handle that was not merged into another one and that this one ended up in. -/
def root (t : HandleTable) (id : HandleId) : Except SolverError HandleId :=
  t.rootWithin (t.handles.size + 1) id

/-- Records that `child` was dragged onto `parent`: the root of `child`, and everything merged
into it, is now merged into the root of `parent`.  Handles that are merged already stay as they
are. -/
def absorb (t : HandleTable) (parent child : HandleId) : Except SolverError HandleTable := do
  discard (t.find child)
  let root ← t.root parent
  let childRoot ← t.root child
  if root = childRoot then
    return t
  let adopted := (← t.find childRoot).absorbed.toList
  let t := t.modify childRoot fun h => { h with into := some root, absorbed := .empty }
  let t := adopted.foldl (fun t member => t.modify member fun h => { h with into := some root }) t
  return t.modify root fun h => { h with absorbed := h.absorbed.insertMany (childRoot :: adopted) }

end HandleTable

/-! ## Coordinates of a handle -/

/-- The two coordinate variables of a point. -/
structure Coords where
  /-- The variable of the horizontal coordinate. -/
  x : VarId
  /-- The variable of the vertical coordinate. -/
  y : VarId
deriving DecidableEq, Repr

/-- The coordinate variables of a handle. -/
def HandleTable.coords (t : HandleTable) (id : HandleId) : Except SolverError Coords := do
  let h ← t.find id
  return ⟨h.x, h.y⟩

namespace Coords

variable {α : Type}

/-- Where the point is. -/
def read (c : Coords) (a : Arena α) : Except SolverError (Point α) := do
  return ⟨← a.value c.x, ← a.value c.y⟩

/-- Do two points have equal coordinates? -/
def sameAs [Scalar α] (c d : Coords) (a : Arena α) : Bool :=
  a.equals c.x d.x && a.equals c.y d.y

end Coords

end SketchSolver

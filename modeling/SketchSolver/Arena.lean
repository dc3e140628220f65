import SketchSolver.Failure
import SketchSolver.Ordered.Map
import SketchSolver.Variable

/-!
# The arena of variables

All variables of a sketch, in order of creation, with the unifications between them.  Reading and
writing go through the canonical variable of a group, so chains of equalities cost the minimizer
nothing.

* **Looking up** — `resolve` takes a variable to its canonical variable and the map that leads
  there; `trail` does so as often as it can.  Unification keeps every group flat, so in an arena
  that only ever saw `unify` a trail has at most one map.
* **Writing** — `setValue` writes to the root of the trail and lets every absorbed variable
  follow.
* **Unifying** — `unify` merges two groups and re-points everything the losing side had absorbed;
  `detach`, `remove` and `reset` take groups apart.

Every operation that can fail answers with an error and no arena, so a failure changes nothing.
-/

namespace SketchSolver

/-- All variables of a sketch. -/
@[ext]
structure Arena (α : Type) where
  /-- The variables, in order of creation. -/
  vars : OrderedMap VarId (Variable α)

namespace Arena

variable {α : Type}

/-- The arena without variables. -/
def empty : Arena α := ⟨.empty⟩

instance : Inhabited (Arena α) := ⟨empty⟩

/-- The identifiers of the variables, in order of creation. -/
def ids (a : Arena α) : List VarId :=
  a.vars.keys

/-- How many variables there are. -/
def size (a : Arena α) : Nat :=
  a.vars.size

/-- The variable with this identifier. -/
def get? (a : Arena α) (id : VarId) : Option (Variable α) :=
  a.vars.get? id

/-- Is there a variable with this identifier? -/
def contains (a : Arena α) (id : VarId) : Bool :=
  a.vars.contains id

/-- The variable with this identifier, or the error that there is none. -/
def find (a : Arena α) (id : VarId) : Except SolverError (Variable α) :=
  match a.get? id with
  | some v => .ok v
  | none => .error (.variableNotFound id)

/-- The value of a variable. -/
def value (a : Arena α) (id : VarId) : Except SolverError α :=
  (a.find id).map Variable.value

/-- Adds a variable that is unified with nothing.  An identifier that is present keeps its place
and loses its variable. -/
def insert (a : Arena α) (id : VarId) (value : α) (represents : Option Represents) : Arena α :=
  ⟨a.vars.insert id (.fresh value represents)⟩

/-- Changes one variable, if it is present. -/
def modify (a : Arena α) (id : VarId) (f : Variable α → Variable α) : Arena α :=
  ⟨a.vars.modify id f⟩

/-- Changes the link of one variable, if it is present. -/
def modifyLink (a : Arena α) (id : VarId) (f : Link α → Link α) : Arena α :=
  a.modify id fun v => { v with link := f v.link }

/-- The variables a variable has absorbed. -/
def membersOf (a : Arena α) (id : VarId) : List VarId :=
  match a.get? id with
  | some v => v.link.members.toList
  | none => []

/-- Takes every unification apart and leaves the values as they are. -/
def reset (a : Arena α) : Arena α :=
  ⟨a.vars.mapValues fun v => { v with link := .alone }⟩

/-- Removes a variable.  Its canonical variable forgets it; what it had absorbed stands alone. -/
def remove (a : Arena α) (id : VarId) : Arena α :=
  match a.get? id with
  | none => a
  | some removed =>
    let rest : Arena α := ⟨a.vars.erase id⟩
    match removed.link with
    | .absorbed into _ => rest.modifyLink into (·.updateMembers (·.erase id))
    | .canonical members =>
      members.toList.foldl (fun a member => a.modifyLink member fun _ => .alone) rest

/-! ## Looking up canonical variables -/

variable [Scalar α]

/-- The variable that `id` follows, with the map that takes the value of `id` to its value.  A
variable that follows none, or one that is gone, is its own. -/
def resolve (a : Arena α) (id : VarId) : VarId × Affine α :=
  match a.get? id with
  | some ⟨_, _, .absorbed into offset⟩ =>
    if a.contains into then (into, offset) else (id, .identity)
  | _ => (id, .identity)

/-- The canonical variable of a variable. -/
def canonical (a : Arena α) (id : VarId) : VarId :=
  (a.resolve id).1

/-- The map from the value of a variable to the value of its canonical variable. -/
def offset (a : Arena α) (id : VarId) : Affine α :=
  (a.resolve id).2

/-- Resolves a variable at most `limit` times: the root that is reached and the maps on the way,
nearest first. -/
def trailWithin (a : Arena α) : Nat → VarId → VarId × List (Affine α)
  | 0, id => (id, [])
  | limit + 1, id =>
    let (next, offset) := a.resolve id
    if next = id then
      (id, [])
    else
      let (root, offsets) := a.trailWithin limit next
      (root, offset :: offsets)

/-- The root a variable leads to, and the maps on the way.  No trail visits a variable twice, so
there are no more maps than variables. -/
def trail (a : Arena α) (id : VarId) : VarId × List (Affine α) :=
  a.trailWithin a.size id

/-- Everything unified with a variable except its canonical variable. -/
def absorbedMembers (a : Arena α) (id : VarId) : List VarId :=
  a.membersOf (a.canonical id)

/-- Do two variables denote the same quantity: one canonical variable, reached by one map? -/
def equals (a : Arena α) (this that : VarId) : Bool :=
  let (thisCanonical, thisOffset) := a.resolve this
  let (thatCanonical, thatOffset) := a.resolve that
  thisCanonical = thatCanonical && thisOffset.nearlyEq thatOffset

/-! ## Writing values -/

/-- Lets an absorbed variable follow when its canonical variable takes a value. -/
def follow (value : α) (a : Arena α) (member : VarId) : Arena α :=
  a.modify member fun v =>
    match v.link with
    | .absorbed _ offset => { v with value := offset.inverse.apply value }
    | .canonical _ => v

/-- Writes a value to a variable, and lets what it has absorbed follow. -/
def writeRoot (a : Arena α) (root : VarId) (value : α) : Arena α :=
  (a.membersOf root).foldl (follow value) (a.modify root fun v => { v with value })

/-- Sets the value of a variable: of its root directly, of everything else in proportion. -/
def setValue (a : Arena α) (id : VarId) (value : α) : Except SolverError (Arena α) :=
  let (root, offsets) := a.trail id
  if a.contains root then
    .ok (a.writeRoot root (offsets.foldl (fun x offset => offset.apply x) value))
  else
    .error (.variableNotFound root)

/-! ## Unifying -/

/-- Re-points one variable that the losing side of a unification had absorbed.  Answers whether
there was something to re-point. -/
def adopt (a : Arena α) (into : VarId) (offset : Affine α) (member : VarId) : Option (Arena α) :=
  match a.get? member with
  | some ⟨_, _, .absorbed _ inner⟩ =>
    some (a.modifyLink member fun _ => .absorbed into (offset.comp inner))
  | _ => none

/-- Re-points everything the losing side had absorbed, and lists what was re-pointed. -/
def adoptAll (a : Arena α) (into : VarId) (offset : Affine α) : List VarId → Arena α × List VarId
  | [] => (a, [])
  | member :: rest =>
    match a.adopt into offset member with
    | some a =>
      let (a, adopted) := a.adoptAll into offset rest
      (a, member :: adopted)
    | none => a.adoptAll into offset rest

/-- Lets the root `this` absorb the root `that`, with everything `that` had absorbed, so that
`this` equals `offset` applied to `that`.  The value of `this` wins. -/
def absorbRoot (a : Arena α) (this that : VarId) (offset : Affine α) :
    Except SolverError (Arena α) := do
  let previous := a.membersOf that
  let a := a.modifyLink that fun _ => .absorbed this offset
  let (a, adopted) := a.adoptAll this offset previous
  let a := a.modifyLink this (·.updateMembers (·.insertMany (that :: adopted)))
  a.setValue this (← a.value this)

/-- Makes `this` equal to `offset` applied to `that` from now on, by merging their groups, and
answers whether anything was merged.  A group is not merged with itself, and a degenerate map
merges nothing. -/
def unify (a : Arena α) (this that : VarId) (offset : Affine α) :
    Except SolverError (Bool × Arena α) := do
  discard (a.find this)
  discard (a.find that)
  let (thisRoot, thisOffsets) := a.trail this
  let (thatRoot, thatOffsets) := a.trail that
  let offset := thisOffsets.foldl (fun map step => step.comp map) offset
  let offset := thatOffsets.foldl (fun map step => map.comp step.inverse) offset
  if thisRoot = thatRoot || offset.isDegenerate then
    return (false, a)
  else
    return (true, ← a.absorbRoot thisRoot thatRoot offset)

/-- Takes one absorbed variable out of its group, so that it stands alone. -/
def detach (a : Arena α) (id : VarId) : Arena α :=
  let canonical := a.canonical id
  if canonical = id then
    a
  else
    (a.modifyLink id fun _ => .alone).modifyLink canonical (·.updateMembers (·.erase id))

end Arena

end SketchSolver

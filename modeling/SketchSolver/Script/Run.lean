import SketchSolver.Script
import SketchSolver.Sketch.Solve

/-!
# Running a sketch file

Running the instructions in order builds a sketch, and a table of what the labels stand for.

Handles, variables and the results of constraints share one namespace.  The label of a handle or
polar vector is taken as soon as one of its properties is, so a declaration is checked against
the owners of all references as well.
-/

namespace SketchSolver

/-- What the labels of a sketch file stand for. -/
structure Labels where
  /-- The handles, in order of declaration. -/
  handles : OrderedMap Label HandleId
  /-- The variables by the written form of their references, in order of declaration. -/
  vars : OrderedMap String VarId

namespace Labels

/-- The table without labels. -/
def empty : Labels := ⟨.empty, .empty⟩

instance : Inhabited Labels := ⟨empty⟩

/-- The handle with a label. -/
def handle? (t : Labels) (label : Label) : Option HandleId :=
  t.handles.get? label

/-- The variable with a written reference. -/
def var? (t : Labels) (name : String) : Option VarId :=
  t.vars.get? name

/-- The handle with a label, or the error that it was not declared. -/
def resolveHandle (t : Labels) (label : Label) : Except ScriptError HandleId :=
  match t.handle? label with
  | some id => .ok id
  | none => .error (.undefinedLabel label.text)

/-- The variable a reference stands for, or the error that it was not declared. -/
def resolve (t : Labels) (ref : VarRef) : Except ScriptError VarId :=
  match t.var? ref.name with
  | some id => .ok id
  | none => .error (.undefinedLabel ref.name)

/-- What stands in front of the first point of a name, if there is a point. -/
def owner? (name : String) : Option String :=
  if name.toList.contains '.' then
    some (String.ofList (name.toList.takeWhile (· ≠ '.')))
  else
    none

/-- Is a label declared already, as a handle, as a variable, or as the owner of one? -/
def isTaken (t : Labels) (label : Label) : Bool :=
  t.handles.contains label ||
    t.vars.keys.any fun name => name = label.text || owner? name = some label.text

/-- Fails if a label is declared already. -/
def claim (t : Labels) (label : Label) : Except ScriptError Unit :=
  if t.isTaken label then .error (.duplicateLabel label.text) else .ok ()

/-- Enters a handle. -/
def nameHandle (t : Labels) (label : Label) (id : HandleId) : Labels :=
  { t with handles := t.handles.insert label id }

/-- Enters a variable. -/
def name (t : Labels) (ref : VarRef) (id : VarId) : Labels :=
  { t with vars := t.vars.insert ref.name id }

end Labels

namespace Script

variable {α : Type} [Scalar α]

/-- The state of a running sketch file: the sketch built so far, and what its labels stand for. -/
structure Progress (α : Type) where
  /-- The sketch built so far. -/
  sketch : Sketch α
  /-- What the labels stand for so far. -/
  labels : Labels

namespace Progress

/-- Performs an operation on the sketch. -/
def edit {β : Type} (p : Progress α) (e : Edit α β) : Except ScriptError (β × Progress α) :=
  match e.run p.sketch with
  | .ok b sketch => .ok (b, { p with sketch })
  | .error e _ => .error (.solver e)

/-- The variables a constraint owns. -/
def ownedBy (p : Progress α) (id : ConstraintId) : Except ScriptError (List VarId) :=
  match p.sketch.constraints.find id with
  | .ok c => .ok c.owned
  | .error e => .error (.solver e)

/-- Adds a constraint that owns one variable, and enters that variable under a label. -/
def declare (p : Progress α) (label : Label) (e : Edit α ConstraintId) :
    Except ScriptError (Progress α) := do
  let (id, p) ← p.edit e
  match ← p.ownedBy id with
  | [var] => return { p with labels := p.labels.name ⟨label, none⟩ var }
  | _ => throw (.solver (.constraintNotFound id))

/-- Runs one instruction. -/
def execute (p : Progress α) : Instruction α → Except ScriptError (Progress α)
  | .handle label position => do
    p.labels.claim label
    let (id, sketch) := p.sketch.addHandle position
    match sketch.handles.get? id with
    | some h =>
      let labels := p.labels.nameHandle label id
      let labels := labels.name ⟨label, some .x⟩ h.x
      return ⟨sketch, labels.name ⟨label, some .y⟩ h.y⟩
    | none => throw (.solver (.handleNotFound id))
  | .var label value => do
    p.labels.claim label
    let (id, sketch) := p.sketch.addVariable value (some (.label label.text))
    return ⟨sketch, p.labels.name ⟨label, none⟩ id⟩
  | .pin label position => do
    let id ← p.labels.resolveHandle label
    let (_, p) ← p.edit do
      match position with
      | some position => Sketch.pin id position
      | none => Sketch.pin id (← Edit.ofExcept ((← get).position id))
    return p
  | .finger label position => do
    let id ← p.labels.resolveHandle label
    let (_, p) ← p.edit (Sketch.finger id position)
    return p
  | .absorb parent child => do
    let parent ← p.labels.resolveHandle parent
    let child ← p.labels.resolveHandle child
    let (_, p) ← p.edit (Sketch.absorb parent child)
    return p
  | .polar label start finish => do
    p.labels.claim label
    let start ← p.labels.resolveHandle start
    let finish ← p.labels.resolveHandle finish
    let (id, p) ← p.edit (Sketch.polar start finish)
    match ← p.ownedBy id with
    | [length, bearing] =>
      let labels := p.labels.name ⟨label, some .distance⟩ length
      return { p with labels := labels.name ⟨label, some .angle⟩ bearing }
    | _ => throw (.solver (.constraintNotFound id))
  | .distance label start finish => do
    p.labels.claim label
    let start ← p.labels.resolveHandle start
    let finish ← p.labels.resolveHandle finish
    p.declare label (Sketch.distance start finish)
  | .angle label start finish => do
    p.labels.claim label
    let start ← p.labels.resolveHandle start
    let finish ← p.labels.resolveHandle finish
    p.declare label (Sketch.angle start finish)
  | .linear y m x b => do
    let y ← p.labels.resolve y
    let x ← p.labels.resolve x
    let (_, p) ← p.edit (Sketch.makeEqual y x ⟨m, b⟩)
    return p
  | .formula label m x b => do
    p.labels.claim label
    let m ← p.labels.resolve m
    let x ← p.labels.resolve x
    let b ← p.labels.resolve b
    p.declare label (Sketch.formula m x b)
  | .lock target value => do
    let target ← p.labels.resolve target
    let (_, p) ← p.edit (Sketch.lock target value false)
    return p

end Progress

/-- Runs a sketch file from an empty sketch. -/
def run (s : Script α) : Except ScriptError (Sketch α × Labels) := do
  let p ← s.instructions.foldlM Progress.execute ⟨.empty, .empty⟩
  return (p.sketch, p.labels)

end Script

end SketchSolver

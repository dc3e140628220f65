import SketchSolver.Document
import SketchSolver.Json.Number
import SketchSolver.Json.Read
import SketchSolver.Scalar.Double

/-!
# Reading saved sketches

Which JSON texts are saved sketches.  Sketches, variables, handles and points may be written as
objects or as arrays of their fields in order.  Constraints are objects with an identifier, a
type, and the fields of that type; the type is given by its name or by its number.

An object may have further members.  They are not looked at, except in a constraint, where they
too have to be proper values (`isProper`): numbers that are not too large, strings that are text,
and not nested too deep.  A field that is given twice is an error, and so is one that is missing.
-/

namespace SketchSolver

namespace Document

/-- Identifiers are below this number. -/
def idLimit : Nat := 0x100000000

/-- How deep a member of a constraint may be nested.  A text may be nested 127 deep, and a member
of a constraint stands three levels below the top. -/
def depthLimit : Nat := 124

/-! ## Members -/

/-- The members of an object by key.  None if a key is no text. -/
def keyed : List (Option String × Json) → Option (List (String × Json))
  | [] => some []
  | (none, _) :: _ => none
  | (some key, value) :: rest => do
    return (key, value) :: (← keyed rest)

/-- The only value of a key.  None if the key is missing or given twice. -/
def field (members : List (String × Json)) (key : String) : Option Json :=
  match members.filter fun m => m.1 = key with
  | [(_, value)] => some value
  | _ => none

/-- The fields with these names, in order, of an object or of an array of just as many items. -/
def fields (names : List String) : Json → Option (List Json)
  | .object members => do
    let members ← keyed members
    names.mapM (field members)
  | .array items => if items.length = names.length then some items else none
  | _ => none

mutual

/-- Is this a proper value, nested at most so deep? -/
def isProper : Nat → Json → Bool
  | _, .null | _, .bool _ => true
  | _, .number n => n.toFloat?.isSome
  | _, .string text => text.isSome
  | 0, .array _ | 0, .object _ => false
  | depth + 1, .array items => areProper depth items
  | depth + 1, .object members => areProperMembers depth members

/-- Are these proper values? -/
def areProper (depth : Nat) : List Json → Bool
  | [] => true
  | item :: rest => isProper depth item && areProper depth rest

/-- Are these proper values under keys that are text? -/
def areProperMembers (depth : Nat) : List (Option String × Json) → Bool
  | [] => true
  | (key, value) :: rest => key.isSome && isProper depth value && areProperMembers depth rest

end

/-! ## Fields -/

/-- Reads an identifier. -/
def readIndex : Json → Option Nat
  | .number n => n.toNatBelow? idLimit
  | _ => none

/-- Reads the identifier of a variable. -/
def readVarId (j : Json) : Option VarId :=
  (readIndex j).map VarId.mk

/-- Reads the identifier of a handle. -/
def readHandleId (j : Json) : Option HandleId :=
  (readIndex j).map HandleId.mk

/-- Reads a number. -/
def readFloat : Json → Option Float
  | .number n => n.toFloat?
  | _ => none

/-- Reads a point. -/
def readPoint (j : Json) : Option (Point Float) := do
  let [x, y] ← fields ["x", "y"] j | none
  return ⟨← readFloat x, ← readFloat y⟩

/-- The types of constraints, in the order of their numbers. -/
def typeNames : List String :=
  ["Constant", "Pin", "Finger", "LinearRelationship", "Absorb", "PolarVector", "Distance",
    "Angle", "LinearFormula"]

/-- Reads the type of a constraint: its name, or its number. -/
def readType : Json → Option String
  | .string (some name) => if typeNames.contains name then some name else none
  | .number n => do typeNames[← n.toNatBelow? JsonNumber.wordLimit]?
  | _ => none

/-- Reads the fields of a constraint of a given type. -/
def readFields (type : String) (members : List (String × Json)) : Option (Constraint Float) :=
  let get (key : String) : Option Json := field members key
  let handle (key : String) : Option HandleId := do readHandleId (← get key)
  let var (key : String) : Option VarId := do readVarId (← get key)
  let float (key : String) : Option Float := do readFloat (← get key)
  let point (key : String) : Option (Point Float) := do readPoint (← get key)
  match type with
  | "Constant" => do return .constant (← var "variable") (← float "value")
  | "Pin" => do return .pin (← handle "handle") (← point "position")
  | "Finger" => do return .finger (← handle "handle") (← point "position")
  | "LinearRelationship" => do
    return .linear (← var "y") (← float "m") (← var "x") (← float "b")
  | "Absorb" => do return .absorb (← handle "parent") (← handle "child")
  | "PolarVector" => do
    return .polar (← handle "a") (← handle "b") (← var "distance") (← var "angle")
  | "Distance" => do return .distance (← handle "a") (← handle "b") (← var "distance")
  | "Angle" => do return .angle (← handle "a") (← handle "b") (← var "angle")
  | "LinearFormula" => do
    return .formula (← var "m") (← var "x") (← var "b") (← var "result")
  | _ => none

/-! ## Parts of a document -/

/-- Reads a variable. -/
def readVariable (j : Json) : Option (SavedVariable Float) := do
  let [id, value] ← fields ["id", "value"] j | none
  return ⟨← readVarId id, ← readFloat value⟩

/-- Reads a handle. -/
def readHandle (j : Json) : Option SavedHandle := do
  let [id, x, y] ← fields ["id", "x", "y"] j | none
  return ⟨← readHandleId id, ← readVarId x, ← readVarId y⟩

/-- Reads a constraint. -/
def readConstraint : Json → Option (SavedConstraint Float)
  | .object members => do
    let members ← keyed members
    let id ← readIndex (← field members "id")
    let rest := members.filter fun m => m.1 ≠ "id"
    if !rest.all fun m => isProper depthLimit m.2 then
      none
    let type ← readType (← field rest "type")
    return ⟨⟨id⟩, ← readFields type rest⟩
  | _ => none

/-- Reads an array. -/
def readArray {β : Type} (readItem : Json → Option β) : Json → Option (List β)
  | .array items => items.mapM readItem
  | _ => none

/-- The saved sketch that a JSON value writes. -/
def ofJson (j : Json) : Option (Document Float) := do
  let [vars, handles, constraints] ← fields ["variables", "handles", "constraints"] j | none
  return ⟨← readArray readVariable vars, ← readArray readHandle handles,
    ← readArray readConstraint constraints⟩

/-- Reads a saved sketch. -/
def read (text : String) : Except SolverError (Document Float) :=
  match (Json.read text).bind ofJson with
  | some d => .ok d
  | none => .error .unreadable

/-- Loads the sketch that a text saves. -/
def load (text : String) : Except SolverError (Sketch Float) := do
  (← read text).toSketch

end Document

end SketchSolver

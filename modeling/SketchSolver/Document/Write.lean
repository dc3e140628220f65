import SketchSolver.Decimal.Layout
import SketchSolver.Document

/-!
# Writing saved sketches

A saved sketch is a JSON text with one member or item a line, indented by two spaces for each
level.  A value that is no finite number is written as `null`.
-/

namespace SketchSolver

/-- A JSON text that has been laid out except for its lines. -/
inductive Printout where
  /-- A value on a single line. -/
  | atom (text : String)
  /-- An array. -/
  | array (items : List Printout)
  /-- An object. -/
  | object (members : List (String × Printout))

namespace Printout

/-- The beginning of a line at a given level. -/
def newline (level : Nat) : String :=
  "\n" ++ String.ofList (List.replicate (2 * level) ' ')

/-- Puts lines between an opening and a closing bracket. -/
def bracketed (level : Nat) (opening closing : String) (lines : List String) : String :=
  if lines.isEmpty then
    opening ++ closing
  else
    opening ++ newline (level + 1) ++ String.intercalate ("," ++ newline (level + 1)) lines ++
      newline level ++ closing

mutual

/-- The text of a value that stands at a given level. -/
def render (level : Nat) : Printout → String
  | .atom text => text
  | .array items => bracketed level "[" "]" (renderItems (level + 1) items)
  | .object members => bracketed level "\x7b" "\x7d" (renderMembers (level + 1) members)

/-- The texts of the items of an array. -/
def renderItems (level : Nat) : List Printout → List String
  | [] => []
  | item :: rest => render level item :: renderItems level rest

/-- The texts of the members of an object. -/
def renderMembers (level : Nat) : List (String × Printout) → List String
  | [] => []
  | (key, value) :: rest =>
    ("\"" ++ key ++ "\": " ++ render level value) :: renderMembers level rest

end

/-- A natural number. -/
def ofNat (n : Nat) : Printout :=
  .atom (Decimal.digitText n)

/-- A number, or `null` if it is not finite. -/
def ofFloat (x : Float) : Printout :=
  .atom (if x.isFinite then Decimal.Layout.saved.write x else "null")

/-- A word that contains nothing to be escaped. -/
def ofWord (w : String) : Printout :=
  .atom ("\"" ++ w ++ "\"")

/-- A point. -/
def ofPoint (p : Point Float) : Printout :=
  .object [("x", ofFloat p.x), ("y", ofFloat p.y)]

/-- The members of a constraint besides its identifier and its kind. -/
def constraintMembers : Constraint Float → List (String × Printout)
  | .constant var value => [("variable", ofNat var.index), ("value", ofFloat value)]
  | .pin handle position | .finger handle position =>
    [("handle", ofNat handle.index), ("position", ofPoint position)]
  | .linear y m x b =>
    [("y", ofNat y.index), ("m", ofFloat m), ("x", ofNat x.index), ("b", ofFloat b)]
  | .absorb parent child => [("parent", ofNat parent.index), ("child", ofNat child.index)]
  | .polar a b distance angle =>
    [("a", ofNat a.index), ("b", ofNat b.index), ("distance", ofNat distance.index),
      ("angle", ofNat angle.index)]
  | .distance a b distance =>
    [("a", ofNat a.index), ("b", ofNat b.index), ("distance", ofNat distance.index)]
  | .angle a b angle =>
    [("a", ofNat a.index), ("b", ofNat b.index), ("angle", ofNat angle.index)]
  | .formula m x b result =>
    [("m", ofNat m.index), ("x", ofNat x.index), ("b", ofNat b.index),
      ("result", ofNat result.index)]

/-- A saved sketch. -/
def ofDocument (d : Document Float) : Printout :=
  .object [
    ("variables", .array (d.vars.map fun v =>
      .object [("id", ofNat v.id.index), ("value", ofFloat v.value)])),
    ("handles", .array (d.handles.map fun h =>
      .object [("id", ofNat h.id.index), ("x", ofNat h.x.index), ("y", ofNat h.y.index)])),
    ("constraints", .array (d.constraints.map fun c =>
      .object (("id", ofNat c.id.index) :: ("type", ofWord c.constraint.kind) ::
        constraintMembers c.constraint)))]

end Printout

/-- The text of a saved sketch. -/
def Document.write (d : Document Float) : String :=
  (Printout.ofDocument d).render 0

end SketchSolver

import SketchSolver.Failure
import SketchSolver.Script.Grammar
import SketchSolver.Text.Blank

/-!
# Sketch files

A sketch file is read line by line.  What follows the first `#` of a line is a comment; the rest
is trimmed, and unless it is empty it has to be an instruction.  The first line that is none is
reported with its number.
-/

namespace SketchSolver

/-- Why a sketch file could not be read or run. -/
inductive ScriptError where
  /-- A line, counted from one, is no instruction. -/
  | syntaxError (line : Nat) (text : String)
  /-- A label is used that was not declared before. -/
  | undefinedLabel (label : String)
  /-- A label is declared a second time. -/
  | duplicateLabel (label : String)
  /-- The sketch refused an operation. -/
  | solver (error : SolverError)
deriving DecidableEq, Repr

/-- What is said about a sketch file that could not be read or run. -/
def ScriptError.message : ScriptError → String
  | .syntaxError line text => s!"Line {line}: could not parse `" ++ text ++ "`"
  | .undefinedLabel label => s!"You referred to {label} but it was never defined"
  | .duplicateLabel label => s!"{label} was defined more than once"
  | .solver error => error.message

/-- The instructions of a sketch file, in order. -/
structure Script (α : Type) where
  /-- The instructions. -/
  instructions : List (Instruction α)
deriving Repr

namespace Script

/-- What a line says, without its comment and the blanks around it. -/
def content (line : List Char) : List Char :=
  Text.trim (line.takeWhile (· ≠ '#'))

/-- Reads lines, of which the first has a given number. -/
def parseLines : Nat → List (List Char) → Except ScriptError (List (Instruction Float))
  | _, [] => .ok []
  | n, line :: rest =>
    match content line with
    | [] => parseLines (n + 1) rest
    | text =>
      match Parser.readAll instruction text with
      | none => .error (.syntaxError n (String.ofList text))
      | some i => do return i :: (← parseLines (n + 1) rest)

/-- Reads a sketch file. -/
def parse (text : String) : Except ScriptError (Script Float) := do
  return ⟨← parseLines 1 (Text.lines text.toList)⟩

/-- The labels of the handles that are declared, in order. -/
def handleLabels {α : Type} (s : Script α) : List Label :=
  s.instructions.filterMap fun
    | .handle label _ => some label
    | _ => none

end Script

end SketchSolver

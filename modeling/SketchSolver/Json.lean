/-!
# JSON values

A JSON value as it stands in a text.  Two things are left undecided until somebody needs them, so
that the parts of a document nobody asks for can be skipped: a number is kept as it is written
(`JsonNumber`), and a string that is no text, because it contains half of a surrogate pair, is
kept as `none`.
-/

namespace SketchSolver

/-- A JSON number as it is written. -/
structure JsonNumber where
  /-- Does it begin with a minus sign? -/
  negative : Bool
  /-- The digits in front of the point. -/
  whole : List Char
  /-- The digits behind the point, none if there is no point. -/
  fraction : List Char
  /-- The sign and the digits of the exponent, if there is one. -/
  exponent : Option (Bool × List Char)
deriving Repr

/-- A JSON value. -/
inductive Json where
  /-- The word `null`. -/
  | null
  /-- One of the words `true` and `false`. -/
  | bool (value : Bool)
  /-- A number. -/
  | number (value : JsonNumber)
  /-- A string, unless it is no text. -/
  | string (text : Option String)
  /-- An array. -/
  | array (items : List Json)
  /-- An object: its keys, unless they are no text, with their values. -/
  | object (members : List (Option String × Json))

end SketchSolver

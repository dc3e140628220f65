/-!
# Blanks and lines

A line of text ends at a line feed, of which a carriage return in front is a part.  Lines are
trimmed of every character that Unicode counts as white space.
-/

namespace SketchSolver

namespace Text

/-- Is this white space? -/
def isBlank (c : Char) : Bool :=
  let n := c.toNat
  (decide (0x9 ≤ n) && decide (n ≤ 0xD)) || n = 0x20 || n = 0x85 || n = 0xA0 || n = 0x1680 ||
    (decide (0x2000 ≤ n) && decide (n ≤ 0x200A)) || n = 0x2028 || n = 0x2029 || n = 0x202F ||
    n = 0x205F || n = 0x3000

/-- The text without blanks in front. -/
def trimLeft (cs : List Char) : List Char :=
  cs.dropWhile isBlank

/-- The text without blanks in front or at the end. -/
def trim (cs : List Char) : List Char :=
  (trimLeft (trimLeft cs).reverse).reverse

/-- A line without the carriage return at its end, if it has one. -/
def dropReturn (line : List Char) : List Char :=
  if line.getLast? = some '\r' then line.dropLast else line

/-- The lines of a text, where `line` is the beginning of the first one, last character first.
A line feed ends a line, and the end of the text ends one that has begun. -/
def linesFrom (line : List Char) : List Char → List (List Char)
  | [] => if line.isEmpty then [] else [line.reverse]
  | '\n' :: rest => dropReturn line.reverse :: linesFrom [] rest
  | c :: rest => linesFrom (c :: line) rest

/-- The lines of a text, without what ends them. -/
def lines (text : List Char) : List (List Char) :=
  linesFrom [] text

end Text

end SketchSolver

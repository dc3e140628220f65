/-!
# Reading text from the front

A `Parser` reads from the front of a list of characters: it answers with a value and the rest, or
not at all.  Parsers are run one after the other in `do` blocks; `<|>` and `maybe` go back to
where they started when a parser fails.

The steps below are all that the grammars of this library are made of: a given character or
word, and the longest run of characters of a class.
-/

namespace SketchSolver

/-- Reads a value from the front of a text. -/
abbrev Parser (β : Type) := StateT (List Char) Option β

namespace Parser

variable {β : Type}

/-- Reads a whole text: nothing may be left over. -/
def readAll (p : Parser β) (text : List Char) : Option β :=
  match p.run text with
  | some (b, []) => some b
  | _ => none

/-- The next character, which is not consumed. -/
def peek : Parser (Option Char) := fun cs => some (cs.head?, cs)

/-- Reads one character of a class. -/
def charOf (p : Char → Bool) : Parser Char
  | c :: cs => if p c then some (c, cs) else none
  | [] => none

/-- Reads this character. -/
def char (c : Char) : Parser Unit := do
  discard (charOf (· = c))

/-- Reads the characters of this word. -/
def chars : List Char → Parser Unit
  | [] => pure ()
  | c :: cs => do
    char c
    chars cs

/-- Reads this word. -/
def word (w : String) : Parser Unit :=
  chars w.toList

/-- Reads this word of lower-case letters, in letters of either case. -/
def wordAnyCase (w : String) : Parser Unit :=
  w.toList.forM fun c => discard (charOf fun d => d.toLower = c)

/-- Reads as many characters of a class as there are. -/
def many (p : Char → Bool) : Parser (List Char) := fun cs =>
  some (cs.takeWhile p, cs.dropWhile p)

/-- Reads as many characters of a class as there are, at least one. -/
def many1 (p : Char → Bool) : Parser (List Char) := fun cs =>
  match cs.takeWhile p with
  | [] => none
  | found => some (found, cs.dropWhile p)

/-- Reads something that may be missing. -/
def maybe (p : Parser β) : Parser (Option β) := fun cs =>
  match p cs with
  | some (b, rest) => some (some b, rest)
  | none => some (none, cs)

end Parser

end SketchSolver

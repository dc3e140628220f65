/-!
# Sketch files

Which paths mean the standard input, what else a path leads to, and why nothing can be read there.
A path is a row of pieces between slashes.  An empty piece or a dot stays where it is, two dots go
back to the directory above, and any other piece is a name; each of them can only be followed from
a directory.
-/

namespace SketchSolver

namespace Command

/-- Why a sketch file cannot be read. -/
inductive ReadFailure where
  /-- A name leads nowhere. -/
  | missing
  /-- Reading is not allowed. -/
  | forbidden
  /-- A piece of the path follows something that is not a directory. -/
  | notDirectory
  /-- The path leads to a directory. -/
  | isDirectory
  /-- A name or the whole path exceeds what a file system takes. -/
  | nameTooLong
  /-- The device behind the path is not there. -/
  | noDevice
  /-- The device behind the path failed. -/
  | deviceFailed
  /-- What was read is not a text. -/
  | notText
  /-- Any other reason, in words. -/
  | other (reason : String)
deriving Repr

/-- The reason in words. -/
def ReadFailure.message : ReadFailure → String
  | .missing => "No such file or directory (os error 2)"
  | .forbidden => "Permission denied (os error 13)"
  | .notDirectory => "Not a directory (os error 20)"
  | .isDirectory => "Is a directory (os error 21)"
  | .nameTooLong => "File name too long (os error 36)"
  | .noDevice => "No such device or address (os error 6)"
  | .deviceFailed => "Input/output error (os error 5)"
  | .notText => "stream did not contain valid UTF-8"
  | .other reason => reason

/-- The pieces of a path. -/
def pieces (path : String) : List String := path.splitOn "/"

/-- Does a piece of a path stay where it is? -/
def stays (piece : String) : Bool := piece.isEmpty || piece == "."

/-- Does a path mean the standard input?  It does if a dash is its first piece and nothing behind
the dash leads anywhere else. -/
def isStandardInput (path : String) : Bool :=
  match pieces path with
  | first :: rest => first == "-" && rest.all stays
  | [] => false

/-- How many bytes a name may have. -/
def maxNameSize : Nat := 255

/-- How many bytes a path may have. -/
def maxPathSize : Nat := 4095

/-- What names can lead to. -/
inductive Node where
  /-- A directory. -/
  | directory
  /-- A file, with what reading it gives. -/
  | file (content : Except ReadFailure String)

/-- The directories and files that a run can see. -/
structure FileTree where
  /-- The names that lead from the root to the working directory. -/
  workingDirectory : List String
  /-- What a row of names leads to from the root, if to anything. -/
  node? : List String → Option Node

/-- Follows one piece of a path from a place, which is given by the names that lead to it. -/
def FileTree.follow (t : FileTree) (place : List String) (piece : String) :
    Except ReadFailure (List String) :=
  match t.node? place with
  | none => .error .missing
  | some (.file _) => .error .notDirectory
  | some .directory =>
    if stays piece then
      .ok place
    else if piece = ".." then
      .ok place.dropLast
    else if maxNameSize < piece.utf8ByteSize then
      .error .nameTooLong
    else
      .ok (place ++ [piece])

/-- Reads the file that a path leads to.  A path that begins with a slash starts at the root, any
other in the working directory. -/
def FileTree.read (t : FileTree) (path : String) : Except ReadFailure String := do
  if maxPathSize < path.utf8ByteSize then
    throw .nameTooLong
  let start := if path.startsWith "/" then [] else t.workingDirectory
  let place ← (pieces path).foldlM t.follow start
  match t.node? place with
  | none => throw .missing
  | some .directory => throw .isDirectory
  | some (.file content) => content

end Command

end SketchSolver

/-!
# File errors

Why a file cannot be read or written, and the words for it.
-/

namespace Pseudocode

/-- What is wrong with a path. -/
inductive FileProblem where
  | missing
  | isDirectory
  | notDirectory
  /-- The path or a part of it is too long. -/
  | tooLong
  /-- The path holds a character that no path can hold. -/
  | malformed
  | alreadyThere
  deriving DecidableEq, Repr

def FileProblem.message : FileProblem → String
  | missing => "no such file or directory"
  | isDirectory => "is a directory"
  | notDirectory => "not a directory"
  | tooLong => "file name too long"
  | malformed => "invalid argument"
  | alreadyThere => "file exists"

/-- A failed operation on a path. -/
structure FileError where
  operation : String
  path : String
  problem : FileProblem
  deriving DecidableEq, Repr

def FileError.message (e : FileError) : String :=
  e.operation ++ " " ++ e.path ++ ": " ++ e.problem.message

end Pseudocode

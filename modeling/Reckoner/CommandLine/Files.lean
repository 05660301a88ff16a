import Reckoner.CommandLine.Run

/-! # Files held in memory

A snapshot of a directory: the texts of its files under their relative paths. `read` follows a path
from name to name as a file system does, so a file has nothing below it and `..` needs a directory
to leave. -/

namespace Reckoner.CommandLine

/-- The files below a directory, each under the names that lead to it. -/
abbrev Snapshot := List (List (List Char) × List Char)

namespace Snapshot

/-- The names of a relative path. -/
def names (path : List Char) : List (List Char) :=
  (path.splitOn '/').filter fun name => name ≠ [] && name ≠ ['.']

/-- Whether some file lies below the place. -/
def isDirectory (files : Snapshot) (place : List (List Char)) : Bool :=
  place = [] || files.any fun (path, _) => place.isPrefixOf path && place ≠ path

/-- What a path leads to that goes on from a directory of the snapshot. -/
def follow (files : Snapshot) : (place : List (List Char)) → (path : List (List Char)) →
    Except ReadFault (List Char)
  | _, [] => .error .isADirectory
  | place, name :: path =>
    if name = ['.', '.'] then
      if place = [] then .error (if path = [] then .isADirectory else .notFound)
      else follow files place.dropLast path
    else
      let place := place ++ [name]
      if files.isDirectory place then follow files place path
      else
        match files.lookup place with
        | none => .error .notFound
        | some text => if path = [] then .ok text else .error .notADirectory

/-- The text of the file that a path leads to. A path that ends with a slash leads to no file, and
nothing is known of what lies outside the directory. -/
def read (files : Snapshot) (path : List Char) : Except ReadFault (List Char) :=
  if path.head? = some '/' then
    .error (if names path = [] then .isADirectory else .notFound)
  else
    match files.follow [] (names path) with
    | .ok text =>
      if path.getLast? = some '/' || path.reverse.take 2 = ['.', '/'] then .error .notADirectory
      else .ok text
    | .error fault => .error fault

end Snapshot

end Reckoner.CommandLine

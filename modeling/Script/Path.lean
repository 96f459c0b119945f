/-
# Script.Path -- names of files and folders

A path is a text whose parts stand between slashes.  A part that is empty or a
single point leads nowhere and does not count, except that a point at the very front
stands for the folder one is in.  A path is kept as it was written.
-/
namespace Script.Path

set_option autoImplicit false

/-- The parts of a path, in order. -/
def parts (path : String) : List String :=
  path.splitOn "/"

/-- A part that leads nowhere. -/
def isVoid (part : String) : Bool :=
  part = "" || part = "."

/-- Whether a path starts at the root of all files. -/
def isAbsolute (path : String) : Bool :=
  path.toList.head? = some '/'

/-- The path of `name` in a folder. -/
def join (folder name : String) : String :=
  if isAbsolute name || folder = "" then name
  else if folder.toList.getLast? = some '/' then folder ++ name
  else folder ++ "/" ++ name

/-- The mark at the front of a path that is no part: the slash of the root, or the point of the
folder one is in. -/
def front (path : String) : String :=
  match path.toList with
  | '/' :: _ => "/"
  | '.' :: '/' :: _ | ['.'] => "."
  | _ => ""

/-- The parts after the front, the last one that counts first. -/
def countedReversed (path : String) : List String :=
  let body := String.ofList (path.toList.drop (front path).length)
  (parts body).reverse.dropWhile isVoid

/-- The folder that a path lies in, absent for the root and the empty path. -/
def parent? (path : String) : Option String :=
  match countedReversed path with
  | _ :: rest => some (front path ++ "/".intercalate (rest.dropWhile isVoid).reverse)
  | [] => if front path = "." then some "" else none

/-- The last part of a path that names a file. -/
def fileName? (path : String) : Option String :=
  (countedReversed path).head?.filter (· ≠ "..")

/-- What stands behind the last point of the file name; a point at its front does not count. -/
def extension? (path : String) : Option String :=
  match fileName? path with
  | none => none
  | some name =>
      let cs := name.toList.reverse
      let stem := (cs.dropWhile (· ≠ '.')).drop 1
      if stem.isEmpty then none else some (String.ofList (cs.takeWhile (· ≠ '.')).reverse)

end Script.Path

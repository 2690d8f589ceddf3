import StyleSheet.Split

/-!
# Paths

A path is a text of pieces with slashes between them.  A piece that is empty or `.` stays where
it is, and `..` goes one directory up.
-/

namespace StyleSheet.Path

/-- The pieces between the slashes.  A leading slash gives an empty first piece, a trailing one an
empty last piece. -/
def pieces (path : String) : List String :=
  (splitWhere (· == '/') path.toList).map String.ofList

/-- Whether a piece names nothing and stays in the same place. -/
def isIdle (piece : String) : Bool := piece == "" || piece == "."

/-- Pieces without the idle ones at the end. -/
def dropIdleEnd (pieces : List String) : List String :=
  (pieces.reverse.dropWhile isIdle).reverse

/-- The pieces of a path with the idle ones at the end left out. -/
def trimmed (path : String) : List String := dropIdleEnd (pieces path)

/-- The name of the file that a path leads to, if its last step is a name. -/
def fileName? (path : String) : Option String :=
  (trimmed path).getLast?.filter (· != "..")

/-- Whether a file name has an extension: a dot that is not its first character. -/
def hasExtension (name : String) : Bool := name.toList.tail.contains '.'

/-- The path with an extension added, if it leads to a file name that has none. -/
def withExtension (extension path : String) : String :=
  match fileName? path with
  | some name =>
    if hasExtension name then path else "/".intercalate (trimmed path) ++ "." ++ extension
  | none => path

def isAbsolute (path : String) : Bool := path.toList.head? == some '/'

/-- Whether a path ends in a slash. -/
def endsInSlash (path : String) : Bool := path.toList.getLast? == some '/'

/-- A path seen from a directory. -/
def join (dir path : String) : String :=
  if isAbsolute path || dir == "" then path
  else if endsInSlash dir then dir ++ path
  else dir ++ "/" ++ path

/-- The directory that a file lies in.  Idle pieces before the file name are left out, since the
length of a path is bounded and the names of other files are put in place of this one. -/
def directory (path : String) : String :=
  let above := (trimmed path).dropLast
  match dropIdleEnd above with
  | [] => if above.head? == some "" then "/" else "."
  | names => "/".intercalate names

/-- The last piece of a path with the pieces before it, slashes at the end left out. -/
def lastStep? (path : String) : Option (List String × String) :=
  match (pieces path).reverse.dropWhile (· == "") with
  | [] => none
  | name :: above => some (above.reverse, name)

end StyleSheet.Path

import StyleSheet.FileError
import StyleSheet.Path
import StyleSheet.Text.Bytes

/-!
# File trees

Files and directories below a working directory, with the rules by which paths are followed.
-/

namespace StyleSheet

namespace FileTree

inductive Entry where
  | file (content : List UInt8)
  | directory
  deriving DecidableEq

end FileTree

/-- The entries below a directory, each with the names on the way to it.  Directories on the way
to an entry need no entry of their own. -/
structure FileTree where
  entries : List (List String × FileTree.Entry)

namespace FileTree

/-- The tree of some files and directories with their paths. -/
def ofPaths (entries : List (String × Entry)) : FileTree :=
  ⟨entries.map fun e => ((Path.pieces e.1).filter (fun p => !Path.isIdle p), e.2)⟩

/-- Where a path leads to. -/
inductive Place where
  /-- Above the working directory, where nothing is known. -/
  | outside
  /-- The names on the way from the working directory. -/
  | inside (names : List String)
  deriving DecidableEq

/-- What is at a place. -/
def entry? (t : FileTree) : Place → Option Entry
  | .outside => some .directory
  | .inside names =>
    match t.entries.lookup names with
    | some e => some e
    | none =>
      if names == [] || t.entries.any (fun e => names.isPrefixOf e.1) then some .directory
      else none

/-- One directory up. -/
def parent : Place → Place
  | .outside => .outside
  | .inside [] => .outside
  | .inside names => .inside names.dropLast

/-- The place of a name in a directory. -/
def below : Place → String → Option Place
  | .outside, _ => none
  | .inside names, name => some (.inside (names ++ [name]))

/-- Fails unless there is a directory at a place. -/
def requireDirectory (t : FileTree) (here : Place) : Except FileError Unit :=
  match t.entry? here with
  | some .directory => .ok ()
  | some (.file _) => .error .notDirectory
  | none => .error .notFound

def maxNameLength : Nat := 255

def maxPathLength : Nat := 4095

/-- Follows one piece of a path. -/
def step (t : FileTree) (here : Place) (piece : String) : Except FileError Place := do
  t.requireDirectory here
  if Path.isIdle piece then return here
  else if piece == ".." then return parent here
  else if maxNameLength < Text.byteLength piece.toList then throw .nameTooLong
  else
    match below here piece with
    | some there => if (t.entry? there).isSome then return there else throw .notFound
    | none => throw .notFound

/-- Where a path starts. -/
def start (path : String) : Place := if Path.isAbsolute path then .outside else .inside []

/-- Fails for a text that no path may be. -/
def checkPath (path : String) : Except FileError Unit :=
  if path.toList.contains '\x00' then .error .nulInName
  else if path == "" then .error .notFound
  else if maxPathLength < Text.byteLength path.toList then .error .nameTooLong
  else .ok ()

/-- Follows a path to an entry. -/
def resolve (t : FileTree) (path : String) : Except FileError Place := do
  checkPath path
  (Path.pieces path).foldlM t.step (start path)

/-- The text of a file. -/
def read (t : FileTree) (path : String) : Except FileError String := do
  match t.entry? (← t.resolve path) with
  | some (.file content) =>
    match String.fromUTF8? ⟨content.toArray⟩ with
    | some text => return text
    | none => throw .notText
  | some .directory => throw .isDirectory
  | none => throw .notFound

/-- Puts a file at a place, instead of any file there. -/
def put (t : FileTree) (names : List String) (content : List UInt8) : FileTree :=
  ⟨(names, .file content) :: t.entries.filter (fun e => e.1 != names)⟩

/-- Writes a file.  Its directory has to exist, and a path that ends in a slash or a dot names no
file. -/
def write (t : FileTree) (path text : String) : Except FileError FileTree := do
  checkPath path
  match Path.lastStep? path with
  | none => throw .isDirectory
  | some (above, name) =>
    let here ← above.foldlM t.step (start path)
    t.requireDirectory here
    if name == "." || name == ".." || Path.endsInSlash path then throw .isDirectory
    else if maxNameLength < Text.byteLength name.toList then throw .nameTooLong
    else
      match here with
      | .outside => throw .notFound
      | .inside names =>
        if t.entry? (.inside (names ++ [name])) = some .directory then throw .isDirectory
        else return t.put (names ++ [name]) text.toUTF8.toList

/-- The files of a tree that another one has not, or not with this content, with their paths. -/
def changes (before after : FileTree) : List (String × List UInt8) :=
  after.entries.filterMap fun e =>
    match e.2 with
    | .file content =>
      if before.entries.lookup e.1 = some (.file content) then none
      else some ("/".intercalate e.1, content)
    | .directory => none

end FileTree

end StyleSheet

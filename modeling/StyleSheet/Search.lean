import StyleSheet.Loader
import StyleSheet.Path

/-!
# Searching for imports

An import path is tried in one directory after another.  A directory without the file is passed
over; a file that is there and cannot be read ends the search.
-/

namespace StyleSheet

/-- A way to read files: the text behind a path. -/
abbrev Reader := String → Except FileError String

namespace Search

/-- The file that an import path names: without an extension it is a style sheet. -/
def fileOf (path : String) : String := Path.withExtension "qss" path

/-- Tries one directory after another. -/
def load (read : Reader) (path : String) : List String → Except LoadError String
  | [] => .error (.notFound path)
  | dir :: rest =>
    match read (Path.join dir (fileOf path)) with
    | .ok source => .ok source
    | .error .notFound => load read path rest
    | .error cause => .error (.unreadable path cause)

/-- The loader that searches some directories. -/
def loader (read : Reader) (dirs : List String) : Loader := fun path => load read path dirs

/-- The directories for the imports of a file: the one it lies in, and then some more. -/
def directories (entry : String) (more : List String) : List String :=
  Path.directory entry :: more

end Search

end StyleSheet

import StyleSheet.Build
import StyleSheet.Build.Options
import StyleSheet.Search

/-!
# Building files

A file is built like its text, with imports searched for in its directory and then in further
ones.
-/

namespace StyleSheet.Build

/-- The setting for the text of a file. -/
def settingFor (read : Reader) (keywords : Keyword.Table) (entry : String)
    (includes : List String) : Setting :=
  { load := Search.loader read (Search.directories entry includes), keywords }

/-- Builds a file. -/
def ofFile (read : Reader) (keywords : Keyword.Table) (includes : List String) (entry : String) :
    Except BuildError String :=
  match read entry with
  | .ok source => ofText (settingFor read keywords entry includes) source
  | .error cause => .error (.file entry cause)

end StyleSheet.Build

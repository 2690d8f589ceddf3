import StyleSheet.FileError
import StyleSheet.Table

/-!
# Loaders

An import names a file by a path; a loader says which text stands behind it.
-/

namespace StyleSheet

/-- Why there is no text behind an import path. -/
inductive LoadError where
  | notFound (path : String)
  | unreadable (path : String) (cause : FileError)
  deriving DecidableEq

namespace LoadError

def message : LoadError → String
  | notFound path => "cannot find import `" ++ path ++ "`"
  | unreadable path cause => "cannot read import `" ++ path ++ "`: " ++ cause.message

end LoadError

abbrev Loader := String → Except LoadError String

namespace Loader

/-- Texts kept under their exact import paths. -/
def ofTable (files : Table String) : Loader := fun path =>
  match files.get? path with
  | some source => .ok source
  | none => .error (.notFound path)

end Loader

end StyleSheet

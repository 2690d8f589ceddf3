/-!
# File errors

Why a file cannot be read or written.
-/

namespace StyleSheet

inductive FileError where
  | notFound
  | notDirectory
  | isDirectory
  | nameTooLong
  | permissionDenied
  /-- The content is not text in UTF-8. -/
  | notText
  /-- The name holds a NUL character. -/
  | nulInName
  /-- Any other error of the operating system. -/
  | other (description : String)
  deriving DecidableEq

namespace FileError

def message : FileError → String
  | notFound => "No such file or directory (os error 2)"
  | notDirectory => "Not a directory (os error 20)"
  | isDirectory => "Is a directory (os error 21)"
  | nameTooLong => "File name too long (os error 36)"
  | permissionDenied => "Permission denied (os error 13)"
  | notText => "stream did not contain valid UTF-8"
  | nulInName => "file name contained an unexpected NUL byte"
  | other description => description

end FileError

end StyleSheet

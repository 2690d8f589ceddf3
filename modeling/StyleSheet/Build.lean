import StyleSheet.Session

/-!
# Builds

A build turns a source text into a flat style sheet.
-/

namespace StyleSheet

inductive BuildError where
  /-- The text is not a sheet. -/
  | read (error : Sheet.ReadError)
  | eval (error : EvalError)
  /-- The file to build cannot be read. -/
  | file (path : String) (cause : FileError)
  /-- Expansions of mixins nest without end. -/
  | tooDeep
  deriving DecidableEq

namespace BuildError

def message : BuildError → String
  | read error => error.message
  | eval error => error.message
  | file path cause => "cannot read `" ++ path ++ "`: " ++ cause.message
  | tooDeep => "mixins are nested too deeply"

def span? : BuildError → Option Span
  | read error => some error.span
  | eval error => some error.span
  | file .. | tooDeep => none

def code? : BuildError → Option Diagnostic.Code
  | read error => some error.code
  | eval error => some error.code
  | file .. | tooDeep => none

/-- The diagnostic of an error that lies in the source. -/
def diagnostic? : BuildError → Option Diagnostic
  | read error => some error.diagnostic
  | eval error => some error.diagnostic
  | file .. | tooDeep => none

end BuildError

namespace Build

/-- Evaluates a sheet from the start. -/
def ofSheet (setting : Setting) (sheet : Sheet) : Except BuildError String :=
  match (Session.initial.program setting sheet).1 with
  | .ok output => .ok output
  | .failed e => .error (.eval e)
  | .tooDeep => .error .tooDeep

/-- Builds a source text. -/
def ofText (setting : Setting) (source : String) : Except BuildError String :=
  match Sheet.ofText setting.keywords source with
  | .ok sheet => ofSheet setting sheet
  | .error e => .error (.read e)

end Build

end StyleSheet

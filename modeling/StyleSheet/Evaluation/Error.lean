import StyleSheet.Loader
import StyleSheet.Sheet.ReadError
import StyleSheet.Value.Arithmetic

/-!
# Evaluation errors

A fault is what goes wrong at one place.  An error that comes out of an imported file is wrapped
once for each import on the way, with the span of the import.
-/

namespace StyleSheet

inductive Fault where
  | undefinedVariable (name : String)
  | undefinedMixin (name : String)
  | missingArguments (mixin : String) (expected got : Nat)
  | misuse (m : Value.Misuse)
  | divisionByZero
  /-- An `&` outside every ruleset. -/
  | strayParentReference
  /-- A declaration outside every ruleset. -/
  | strayDeclaration
  /-- A file that is imported while it is being imported. -/
  | importCycle (path : String)
  | load (error : LoadError)
  /-- An imported text that is not a sheet. -/
  | read (path : String) (error : Sheet.ReadError)
  deriving DecidableEq

namespace Fault

def ofArithmetic : Value.ArithmeticError → Fault
  | .misuse m => misuse m
  | .divisionByZero => divisionByZero

def code : Fault → Diagnostic.Code
  | undefinedVariable _ => .undefinedVariable
  | undefinedMixin _ => .undefinedMixin
  | missingArguments .. => .missingArguments
  | misuse _ => .operandMismatch
  | divisionByZero => .divisionByZero
  | strayParentReference => .strayParentReference
  | strayDeclaration => .strayDeclaration
  | importCycle _ => .importCycle
  | load _ => .importUnreadable
  | read _ error => error.code

def message : Fault → String
  | undefinedVariable name => "undefined variable `" ++ name ++ "`"
  | undefinedMixin name => "undefined mixin `" ++ name ++ "`"
  | missingArguments mixin expected got =>
    "mixin `" ++ mixin ++ "` takes " ++ toString expected ++ " argument(s) but " ++
      toString got ++ " were supplied"
  | misuse m => "cannot apply `" ++ m.operation ++ "` to " ++ m.operands
  | divisionByZero => "division by zero"
  | strayParentReference => "`&` used outside a ruleset"
  | strayDeclaration => "declaration outside a ruleset"
  | importCycle path => "import cycle through `" ++ path ++ "`"
  | load error => error.message
  | read path error => "syntax error in `" ++ path ++ "`: " ++ error.message

/-- What is written beside the place of the fault. -/
def label : Fault → String
  | undefinedVariable _ => "not defined in this scope"
  | undefinedMixin _ => "no mixin with this name is visible here"
  | missingArguments .. => "too few arguments"
  | misuse _ => "incompatible operands"
  | divisionByZero => "divisor evaluates to zero"
  | strayParentReference => "no enclosing selector"
  | strayDeclaration => "declared here"
  | importCycle _ => "imported again here"
  | load _ | read .. => "imported here"

def notes : Fault → List String
  | missingArguments _ expected got =>
    ["expected at least " ++ toString expected ++ ", found " ++ toString got]
  | _ => []

end Fault

/-- Why a sheet cannot be evaluated. -/
inductive EvalError where
  | raised (fault : Fault) (span : Span)
  /-- An error in an imported file, with the place of the import. -/
  | inImport (path : String) (cause : EvalError) (span : Span)
  deriving DecidableEq

namespace EvalError

def span : EvalError → Span
  | raised _ span | inImport _ _ span => span

/-- The fault inside all imports. -/
def fault : EvalError → Fault
  | raised fault _ => fault
  | inImport _ cause _ => cause.fault

/-- The imports on the way to the fault, outermost first. -/
def imports : EvalError → List String
  | raised .. => []
  | inImport path cause _ => path :: cause.imports

def code (e : EvalError) : Diagnostic.Code := e.fault.code

def message : EvalError → String
  | raised fault _ => fault.message
  | inImport path cause _ => "in `" ++ path ++ "`: " ++ cause.message

def label : EvalError → String
  | raised fault _ => fault.label
  | inImport .. => "error raised inside this import"

def diagnostic (e : EvalError) : Diagnostic :=
  ⟨e.code, e.message, [⟨e.span, e.label⟩], e.fault.notes⟩

end EvalError

end StyleSheet

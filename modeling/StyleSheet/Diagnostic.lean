import StyleSheet.Span

/-!
# Diagnostics

What a failed build reports: a code, a message, labelled places and notes.
-/

namespace StyleSheet

namespace Diagnostic

/-- The causes of failure that have a code of their own.  The first digit of a code tells the
phase: scanning, reading, evaluating, importing. -/
inductive Code where
  | unknownToken
  | unterminated
  | unexpectedToken
  | expectedExpression
  | unclosedDelimiter
  | undefinedVariable
  | undefinedMixin
  | missingArguments
  | operandMismatch
  | divisionByZero
  | strayParentReference
  | strayDeclaration
  | importUnreadable
  | importCycle
  deriving DecidableEq

namespace Code

def all : List Code :=
  [unknownToken, unterminated, unexpectedToken, expectedExpression, unclosedDelimiter,
    undefinedVariable, undefinedMixin, missingArguments, operandMismatch, divisionByZero,
    strayParentReference, strayDeclaration, importUnreadable, importCycle]

def text : Code → String
  | unknownToken => "E0001"
  | unterminated => "E0002"
  | unexpectedToken => "E1001"
  | expectedExpression => "E1002"
  | unclosedDelimiter => "E1003"
  | undefinedVariable => "E2001"
  | undefinedMixin => "E2002"
  | missingArguments => "E2003"
  | operandMismatch => "E2004"
  | divisionByZero => "E2005"
  | strayParentReference => "E2006"
  | strayDeclaration => "E2007"
  | importUnreadable => "E3001"
  | importCycle => "E3002"

def ofText? (s : String) : Option Code := all.find? (fun c => c.text == s)

/-- Whether the cause lies in the tokens. -/
def isScanning : Code → Bool
  | unknownToken | unterminated => true
  | _ => false

/-- Whether the cause lies in the order of the tokens. -/
def isReading : Code → Bool
  | unexpectedToken | expectedExpression | unclosedDelimiter => true
  | _ => false

end Code

/-- A place with a message. -/
structure Label where
  span : Span
  message : String
  deriving DecidableEq

end Diagnostic

/-- A reported failure.  The first label is the place it points to. -/
structure Diagnostic where
  code : Diagnostic.Code
  message : String
  labels : List Diagnostic.Label
  notes : List String
  deriving DecidableEq

namespace Diagnostic

/-- The diagnostic of a failure at one place. -/
def single (code : Code) (message : String) (span : Span) (label : String) : Diagnostic :=
  ⟨code, message, [⟨span, label⟩], []⟩

/-- The place a diagnostic points to. -/
def primary? (d : Diagnostic) : Option Span := d.labels.head?.map Label.span

/-- The lines for the labels: an arrow marks the first. -/
def labelLines : List Label → List String
  | [] => []
  | first :: others =>
    ("\n  --> " ++ first.span.text ++ ": " ++ first.message) ::
      others.map (fun l => "\n      " ++ l.span.text ++ ": " ++ l.message)

/-- A diagnostic in plain text, without the source it belongs to. -/
def text (d : Diagnostic) : String :=
  "error [" ++ d.code.text ++ "]: " ++ d.message ++ String.join (labelLines d.labels) ++
    String.join (d.notes.map ("\n  = note: " ++ ·))

end Diagnostic

end StyleSheet

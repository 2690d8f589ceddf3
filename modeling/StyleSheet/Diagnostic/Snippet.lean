import StyleSheet.Diagnostic
import StyleSheet.Text.Lines

/-!
# Snippets

A diagnostic is printed with the source line it points to and carets under the place.
-/

namespace StyleSheet.Diagnostic

/-- `n` copies of a character. -/
def run (n : Nat) (c : Char) : String := String.ofList (List.replicate n c)

/-- The number of carets for a span: one for each character, and at least one. -/
def caretCount (source : String) (span : Span) : Nat :=
  ((Text.slice? source.toList span.start span.stop).map (max 1 ·.length)).getD 1

/-- The numbered source line with the carets below it. -/
def excerpt (source : String) (line : String) (place : Text.Position) (label : Label) : String :=
  let gutter := run (toString place.line).length ' '
  gutter ++ " |\n" ++ toString place.line ++ " | " ++ line ++ "\n" ++ gutter ++ " | " ++
    run (place.column - 1) ' ' ++ run (caretCount source label.span) '^' ++
    (if label.message.isEmpty then "\n" else " " ++ label.message ++ "\n")

/-- Where a diagnostic points to in the file `path` with text `source`. -/
def location (path source : String) (label : Label) : String :=
  let lines := Text.Lines.ofText source
  let place := lines.position source label.span.start
  run (toString place.line).length ' ' ++ "--> " ++ path ++ ":" ++ toString place.line ++ ":" ++
    toString place.column ++ "\n" ++
    match lines.lineText? source place.line with
    | some line => excerpt source line place label
    | none => ""

/-- A diagnostic as it is printed for the file `path` with text `source`. -/
def render (d : Diagnostic) (path source : String) : String :=
  "error[" ++ d.code.text ++ "]: " ++ d.message ++ "\n" ++
    (match d.labels with
      | label :: _ => location path source label
      | [] => " --> " ++ path ++ "\n") ++
    String.join (d.notes.map ("  = note: " ++ · ++ "\n"))

end StyleSheet.Diagnostic

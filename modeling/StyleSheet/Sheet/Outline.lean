import StyleSheet.Sheet
import StyleSheet.Text.Quoted

/-!
# Outlines

A listing of the statements of a sheet, one line each, with nested statements indented.
-/

namespace StyleSheet.Sheet

/-- A line at a depth. -/
def outlineLine (depth : Nat) (text : String) : String :=
  String.join (List.replicate depth "  ") ++ text ++ "\n"

/-- The texts of tokens, without anything between them. -/
def joinedText (tokens : List Token) : String := String.join (tokens.map Token.text)

/-- A text without the blanks at its two ends. -/
def trimBlanks (s : String) : String :=
  String.ofList (((s.toList.dropWhile Char.isWhitespace).reverse.dropWhile
    Char.isWhitespace).reverse)

mutual

/-- The lines of one statement. -/
def outline (depth : Nat) : Stmt → String
  | .assign target _ isGlobal isDefault span =>
    outlineLine depth ("var " ++ target.name ++ (if isGlobal then " !global" else "") ++
      (if isDefault then " !default" else "") ++ " @ " ++ span.text)
  | .ruleset header rules children span =>
    outlineLine depth ("ruleset `" ++ trimBlanks (joinedText header) ++ "` @ " ++ span.text) ++
      outlineAll (depth + 1) rules ++ outlineAll (depth + 1) children
  | .declare property values _ span =>
    outlineLine depth ("rule " ++ property.text ++ " (" ++ toString values.length ++
      " values) @ " ++ span.text)
  | .mixin name params ⟨body, _⟩ span =>
    outlineLine depth ("@mixin " ++ name ++ "(" ++ ", ".intercalate (params.map Ident.name) ++
      ") @ " ++ span.text) ++ outlineAll (depth + 1) body
  | .expand name args span =>
    outlineLine depth ("@include " ++ name ++ " (" ++ toString args.length ++ " args) @ " ++
      span.text)
  | .importFile path span =>
    outlineLine depth ("@import " ++ Text.quoted path ++ " @ " ++ span.text)
  | .extend target span => outlineLine depth ("@extend " ++ joinedText target ++ " @ " ++ span.text)
  | .branch _ ⟨yes, _⟩ no span =>
    outlineLine depth ("@if @ " ++ span.text) ++ outlineAll (depth + 1) yes ++
      match no with
      | some ⟨statements, _⟩ => outlineLine depth "@else" ++ outlineAll (depth + 1) statements
      | none => ""
  | .expr value => outlineLine depth ("expression @ " ++ value.span.text)

/-- The lines of several statements. -/
def outlineAll (depth : Nat) : List Stmt → String
  | [] => ""
  | s :: rest => outline depth s ++ outlineAll depth rest

end

mutual

/-- The paths that a statement may import. -/
def importsOf : Stmt → List String
  | .ruleset _ rules children _ => importsOfAll rules ++ importsOfAll children
  | .mixin _ _ ⟨body, _⟩ _ => importsOfAll body
  | .importFile path _ => [path]
  | .branch _ ⟨yes, _⟩ no _ =>
    importsOfAll yes ++
      match no with
      | some ⟨statements, _⟩ => importsOfAll statements
      | none => []
  | _ => []

/-- The paths that statements may import. -/
def importsOfAll : List Stmt → List String
  | [] => []
  | s :: rest => importsOf s ++ importsOfAll rest

end

end StyleSheet.Sheet

import StyleSheet.Operator

/-!
# Sheets

A sheet is a list of statements.  Statements and expressions carry the span of the source
they were read from; parentheses leave no trace in the tree.
-/

namespace StyleSheet

/-- A name with the place it was written at. -/
structure Ident where
  name : String
  span : Span
  deriving DecidableEq

inductive Expr where
  /-- The value of a variable. -/
  | var (name : String) (span : Span)
  | number (magnitude : Float) (unit : Option String) (span : Span)
  /-- A bare word, or a string with its quotes. -/
  | text (text : String) (span : Span)
  | color (text : String) (span : Span)
  | bool (value : Bool) (span : Span)
  | negate (operand : Expr) (span : Span)
  | binary (op : Operator) (left right : Expr) (span : Span)
  | selector (token : Token)

namespace Expr

def span : Expr → Span
  | var _ span | number _ _ span | text _ span | color _ span | bool _ span
  | negate _ span | binary _ _ _ span => span
  | selector token => token.span

end Expr

/-- Statements between braces. -/
structure Block (α : Type) where
  statements : List α
  span : Span

inductive Stmt where
  /-- `$name: value` with the flags `!global` and `!default`. -/
  | assign (target : Ident) (value : Expr) (isGlobal isDefault : Bool) (span : Span)
  /-- A header with a body.  The nested rulesets are kept apart from all other statements. -/
  | ruleset (header : List Token) (rules children : List Stmt) (span : Span)
  /-- `property: values`, maybe `!important`. -/
  | declare (property : Token) (values : List Expr) (important : Bool) (span : Span)
  | mixin (name : String) (params : List Ident) (body : Block Stmt) (span : Span)
  /-- The expansion of a mixin. -/
  | expand (name : String) (args : List Expr) (span : Span)
  | importFile (path : String) (span : Span)
  | extend (target : List Token) (span : Span)
  | branch (condition : Expr) (yes : Block Stmt) (no : Option (Block Stmt)) (span : Span)
  | expr (value : Expr)

namespace Stmt

def span : Stmt → Span
  | assign _ _ _ _ span | ruleset _ _ _ span | declare _ _ _ span | mixin _ _ _ span
  | expand _ _ span | importFile _ span | extend _ span | branch _ _ _ span => span
  | expr value => value.span

def isRuleset : Stmt → Bool
  | ruleset .. => true
  | _ => false

end Stmt

/-- A sheet is its statements, in order. -/
abbrev Sheet := List Stmt

end StyleSheet

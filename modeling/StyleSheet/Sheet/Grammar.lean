import StyleSheet.Number
import StyleSheet.Sheet.Reading

/-!
# The grammar of sheets

Readings for expressions and statements.  Expressions are read by precedence climbing: an
operand, and then operators as long as they bind more strongly than the floor that is given.
Statements are told apart by the current token and, for variables and properties, by the colon
after it.

A reading that goes deeper is given as many levels as it may go; each level takes a token, so
the tokens that are left are enough (`StyleSheet.Sheet.Progress`).
-/

namespace StyleSheet.Sheet

open Reading

variable {σ : Type} [Window σ]

/-! ### Expressions -/

/-- Cuts a text in front of the first character that is neither a digit nor a point.  The
magnitude is what `read` makes of the first part, and the second part is the unit, if it is not
empty. -/
def splitWith {α : Type} (read : List Char → Option α) (text : String) :
    Option (α × Option String) :=
  let cs := text.toList
  let digits := cs.takeWhile (fun c => c.isDigit || c == '.')
  let unit := String.ofList (cs.drop digits.length)
  (read digits).map fun x => (x, if unit.isEmpty then none else some unit)

/-- The magnitude and the unit of a numeric literal. -/
def splitNumber? : String → Option (Float × Option String) := splitWith Number.ofDecimal?

/-- Reads an operand; `sub` reads the expression inside it that binds more strongly than a
floor. -/
def operand (sub : Operator.Precedence → Reading σ Expr) : Reading σ Expr := do
  let t ← current
  match t.kind with
  | .variableName => do
    let _ ← advance
    return .var t.text t.span
  | .number => do
    let _ ← advance
    match splitNumber? t.text with
    | some (magnitude, unit) => return .number magnitude unit t.span
    | none => fail (.unexpected (.token .number) .number t.span)
  | .string => do
    let _ ← advance
    return .text t.text t.span
  | .color => do
    let _ ← advance
    return .color t.text t.span
  | .litTrue => do
    let _ ← advance
    return .bool true t.span
  | .litFalse => do
    let _ ← advance
    return .bool false t.span
  | .minus => do
    let _ ← advance
    let right ← sub .unary
    return .negate right (t.span.merge right.span)
  | .leftParen => do
    let _ ← advance
    let inner ← sub .lowest
    let _ ← expectClose .paren t.span
    return inner
  | kind =>
    if kind.isSelector then do
      let _ ← advance
      return .selector t
    else fail (.expectedExpression kind t.span)

/-- Reads operators that bind more strongly than `floor`, each with its right operand, after the
expression `left`. -/
def climb (sub : Operator.Precedence → Reading σ Expr) :
    Nat → Operator.Precedence → Expr → Reading σ Expr
  | 0, _, _ => starve
  | n + 1, floor, left => do
    match Operator.ofKind? (← current).kind with
    | none => return left
    | some op =>
      if op.precedence.rank ≤ floor.rank then return left
      else
        let _ ← advance
        let right ← sub op.precedence
        climb sub n floor (.binary op left right (left.span.merge right.span))

/-- Reads an expression whose operators bind more strongly than a floor, at most so many levels
deep. -/
def expressionUpTo : Nat → Operator.Precedence → Reading σ Expr
  | 0, _ => starve
  | n + 1, floor => do
    let first ← operand (expressionUpTo n)
    climb (expressionUpTo n) (n + 1) floor first

/-- Reads an expression. -/
def expression : Reading σ Expr := fun s => expressionUpTo (Window.size s + 1) .lowest s

/-! ### Statements -/

/-- The end of a statement: a semicolon, which can be left out before a closing brace and at the
end of the input. -/
def endStatement : Reading σ Unit := do
  if ← eat .semicolon then return ()
  else if ← check .rightBrace then return ()
  else if Window.isAtEnd (← window) then return ()
  else unexpected (.token .semicolon)

/-- A flag of an assignment. -/
inductive Flag where
  | globally
  | byDefault
  deriving DecidableEq

def flag? : Reading σ (Option Flag) := do
  if ← eat (.keyword .bangGlobal) then return some .globally
  else if ← eat (.keyword .bangDefault) then return some .byDefault
  else return none

/-- `$name: value`, with any flags. -/
def assignment : Reading σ Stmt := do
  let name ← advance
  let _ ← expect .colon
  let value ← expression
  let flags ← many flag?
  let span := name.span.merge (← lastSpan)
  endStatement
  return .assign ⟨name.text, name.span⟩ value (flags.contains .globally)
    (flags.contains .byDefault) span

/-- One more value of a declaration, if its end is not reached. -/
def value? : Reading σ (Option Expr) := do
  match (← current).kind with
  | .semicolon | .rightBrace | .eof | .keyword .bangImportant => return none
  | _ => return some (← expression)

/-- `property: values`, maybe `!important`. -/
def declaration : Reading σ Stmt := do
  let property ← advance
  let _ ← expect .colon
  let first ← expression
  let others ← many value?
  let important ← eat (.keyword .bangImportant)
  let span := property.span.merge (← lastSpan)
  endStatement
  return .declare property (first :: others) important span

/-- One more token of a header, up to the opening brace. -/
def headerToken? : Reading σ (Option Token) := do
  let kind := (← current).kind
  if kind = .leftBrace then return none
  else if kind.isSelector || kind = .comma then return some (← advance)
  else unexpected (.token .leftBrace)

/-- Statements between braces; `inner` reads those behind an opening brace up to the closing
one. -/
def block (inner : Span → Reading σ (List Stmt)) : Reading σ (Block Stmt) := do
  let opened := (← expect .leftBrace).span
  let statements ← inner opened
  return ⟨statements, opened.merge (← lastSpan)⟩

/-- A header with its body. -/
def ruleset (inner : Span → Reading σ (List Stmt)) : Reading σ Stmt := do
  let start := (← current).span
  let header ← many headerToken?
  let body ← block inner
  return .ruleset header (body.statements.filter (!·.isRuleset))
    (body.statements.filter (·.isRuleset)) (start.merge (← lastSpan))

/-- A text without the pair of quotes around it, if there is one. -/
def unquoted (text : String) : String :=
  match text.toList with
  | q :: rest =>
    if (q == '"' || q == '\'') && rest.getLast? == some q then String.ofList rest.dropLast
    else text
  | [] => text

/-- `@import` with a path. -/
def importation : Reading σ Stmt := do
  let start := (← advance).span
  let path ← expect .string
  endStatement
  return .importFile (unquoted path.text) (start.merge path.span)

/-- The name of a mixin, a bare word of any kind. -/
def mixinName : Reading σ String := do
  match (← current).kind with
  | .string | .color | .typeSelector | .property => return (← advance).text
  | _ => unexpected .mixinName

/-- Items with commas between them up to a closing parenthesis or the end of the input; a comma
can follow the last. -/
def separatedUpTo {α : Type} (item : Reading σ α) : Nat → Reading σ (List α)
  | 0 => starve
  | n + 1 => do
    if ← check .rightParen then return []
    else if Window.isAtEnd (← window) then return []
    else
      let a ← item
      if ← eat .comma then return a :: (← separatedUpTo item n)
      else return [a]

/-- Items between parentheses, or none without any parentheses. -/
def parenthesized {α : Type} (item : Reading σ α) : Reading σ (List α) := do
  if ← check .leftParen then
    let opened := (← advance).span
    let items ← fun s => separatedUpTo item (Window.size s + 1) s
    let _ ← expectClose .paren opened
    return items
  else return []

/-- A parameter of a mixin. -/
def parameter : Reading σ Ident := do
  let t ← expect .variableName
  return ⟨t.text, t.span⟩

/-- `@mixin` with a name, parameters and a body. -/
def mixinDefinition (inner : Span → Reading σ (List Stmt)) : Reading σ Stmt := do
  let start := (← advance).span
  let name ← mixinName
  let params ← parenthesized parameter
  let body ← block inner
  return .mixin name params body (start.merge body.span)

/-- `@include` with a name and arguments. -/
def expansion : Reading σ Stmt := do
  let start := (← advance).span
  let name ← mixinName
  let args ← parenthesized expression
  let span := start.merge (← lastSpan)
  endStatement
  return .expand name args span

/-- One more token of the target of `@extend`. -/
def targetToken? : Reading σ (Option Token) := do
  let kind := (← current).kind
  if kind.isSelector || kind = .string then return some (← advance) else return none

/-- `@extend` with a selector. -/
def extension : Reading σ Stmt := do
  let start := (← advance).span
  let target ← many targetToken?
  if target.isEmpty then unexpected .selector
  else
    let span := start.merge (← lastSpan)
    endStatement
    return .extend target span

/-- What follows a block of `@if`: nothing, a block after `@else`, or after `@else` a further
condition, which `chained` reads. -/
def alternative (inner : Span → Reading σ (List Stmt)) (chained : Reading σ Stmt) :
    Reading σ (Option (Block Stmt)) := do
  if ← eat (.keyword .atElse) then
    if ← check (.keyword .atIf) then
      let next ← chained
      return some ⟨[next], next.span⟩
    else return some (← block inner)
  else return none

/-- `@if` with a condition, a block and its alternatives, at most so many. -/
def conditionalUpTo (inner : Span → Reading σ (List Stmt)) : Nat → Reading σ Stmt
  | 0 => starve
  | n + 1 => do
    let start := (← advance).span
    let condition ← expression
    let yes ← block inner
    let no ← alternative inner (conditionalUpTo inner n)
    return .branch condition yes no (start.merge (← lastSpan))

def conditional (inner : Span → Reading σ (List Stmt)) : Reading σ Stmt := fun s =>
  conditionalUpTo inner (Window.size s + 1) s

/-- An expression that stands for itself. -/
def expressionStatement : Reading σ Stmt := do
  let value ← expression
  endStatement
  return .expr value

/-- A statement, as the first two tokens tell; a lone semicolon is none. -/
def statement (inner : Span → Reading σ (List Stmt)) : Reading σ (Option Stmt) := do
  let s ← window
  match (Window.current s).kind with
  | .semicolon => do
    let _ ← advance
    return none
  | .variableName =>
    if (Window.ahead s).kind = .colon then some <$> assignment else some <$> expressionStatement
  | .property =>
    if (Window.ahead s).kind = .colon then some <$> declaration else some <$> expressionStatement
  | .keyword .atImport => some <$> importation
  | .keyword .atMixin => some <$> mixinDefinition inner
  | .keyword .atInclude => some <$> expansion
  | .keyword .atExtend => some <$> extension
  | .keyword .atIf => some <$> conditional inner
  | kind => if kind.isSimpleSelector then some <$> ruleset inner else some <$> expressionStatement

/-- Whether statements are over: at the closing brace, which is read, if a brace was opened at a
span, and else at the end of the input. -/
def isOver : Option Span → Reading σ Bool
  | none => return Window.isAtEnd (← window)
  | some opened => do
    if ← eat .rightBrace then return true
    else if Window.isAtEnd (← window) then fail (.unclosed .brace opened)
    else return false

/-- Statements up to where they are over, at most so many levels deep. -/
def statementsUpTo : Nat → Option Span → Reading σ (List Stmt)
  | 0, _ => starve
  | n + 1, enclosing => do
    if ← isOver enclosing then return []
    else
      let first ← statement (fun opened => statementsUpTo n (some opened))
      let others ← statementsUpTo n enclosing
      return first.toList ++ others

end StyleSheet.Sheet

import StyleSheet.Evaluation.Expression
import StyleSheet.Evaluation.Output
import StyleSheet.Evaluation.State
import StyleSheet.Selector
import StyleSheet.Sheet.Read

/-!
# Evaluating statements

Statements run under the selectors of the ruleset they stand in, if they stand in one, and put
out declarations of that ruleset and finished blocks.

Bodies of mixins and imported files are no parts of the statement that runs them.  They are run by
a parameter `deeper`, and `runUpTo` closes the knot: it goes as many levels deep as it is told.
-/

namespace StyleSheet

/-- What an evaluation depends on besides the sheet. -/
structure Setting where
  /-- Where imported files come from. -/
  load : Loader
  /-- The keywords that imported files are read with. -/
  keywords : Keyword.Table
  /-- How deep expansions of mixins and imports may nest. -/
  maxDepth : Nat := 4294967296

/-- The selectors of the innermost ruleset; none outside every ruleset. -/
abbrev Enclosing := Option (List String)

namespace Evaluation

/-- The value of an expression in the innermost scope. -/
def valueOf (e : Expr) : Evaluation Value := do
  ofExcept (e.value (← state).env.lookup)

def valuesOf (es : List Expr) : Evaluation (List Value) := do
  ofExcept (Expr.values (← state).env.lookup es)

/-- Binds a variable.  With `!default` a variable that is bound is left alone and the expression
is not evaluated. -/
def assign (name : String) (value : Expr) (isGlobal isDefault : Bool) : Evaluation Unit := do
  let env := (← state).env
  let bound := if isGlobal then env.lookupGlobal name else env.lookup name
  if isDefault && bound.isSome then return
  let v ← valueOf value
  change fun env => if isGlobal then env.defineGlobal name v else env.define name v

/-- The selectors of a ruleset. -/
def selectorsOf (enclosing : Enclosing) (header : List Token) (span : Span) :
    Evaluation (List String) :=
  match Selector.compose enclosing header with
  | .ok selectors => pure selectors
  | .error reference =>
    fail .strayParentReference (if reference.span.isEmpty then span else reference.span)

/-- Writes a declaration. -/
def declare (enclosing : Enclosing) (property : Token) (values : List Expr) (important : Bool)
    (span : Span) : Evaluation Output :=
  if enclosing.isNone then fail .strayDeclaration span
  else do
    let vs ← valuesOf values
    return .declaration (Output.declarationText property.text (vs.map Value.shown) important)

/-- Binds the parameters of a mixin in the innermost scope; arguments beyond them are dropped. -/
def bindParams (params : List String) (values : List Value) (env : Environment) : Environment :=
  (params.zip values).foldl (fun env p => env.define p.1 p.2) env

/-- Expands a mixin: its arguments are evaluated in the scope of the caller, its body is run below
the scope it was declared in. -/
def expand (deeper : Enclosing → List Stmt → Evaluation Output) (enclosing : Enclosing)
    (name : String) (args : List Expr) (span : Span) : Evaluation Output := do
  let s ← state
  match (s.env.lookupMixin name).filter (fun b => s.isAlive b.home) with
  | none => fail (.undefinedMixin name) span
  | some b =>
    if args.length < b.mixin.params.length then
      fail (.missingArguments name b.mixin.params.length args.length) span
    else do
      let values ← valuesOf args
      within (fun env => bindParams b.mixin.params values (env.pushIn b.home))
        (deeper enclosing b.mixin.body)

/-- The statements of an imported file. -/
def importedSheet (setting : Setting) (path : String) : Except Fault Sheet :=
  match setting.load path with
  | .error e => .error (.load e)
  | .ok source =>
    match Sheet.ofText setting.keywords source with
    | .error e => .error (.read path e)
    | .ok sheet => .ok sheet

/-- Imports a file, unless it is already being imported. -/
def importFile (setting : Setting) (deeper : Enclosing → List Stmt → Evaluation Output)
    (enclosing : Enclosing) (path : String) (span : Span) : Evaluation Output := do
  if (← state).isImporting path then fail (.importCycle path) span
  else
    match importedSheet setting path with
    | .error fault => fail fault span
    | .ok sheet => importing path span (deeper enclosing sheet)

/-- The truth of a condition. -/
def truthOf (condition : Expr) : Evaluation Bool := do
  match ← valueOf condition with
  | .bool b => return b
  | v => fail (.misuse (.condition v.shape)) condition.span

mutual

/-- Runs one statement. -/
def run (setting : Setting) (deeper : Enclosing → List Stmt → Evaluation Output)
    (enclosing : Enclosing) : Stmt → Evaluation Output
  | .assign target value isGlobal isDefault _ => do
    assign target.name value isGlobal isDefault
    return .empty
  | .ruleset header rules children span => do
    let selectors ← selectorsOf enclosing header span
    let body ← within (·.push) do
      let own ← runAll setting deeper (some selectors) rules
      let nested ← runAll setting deeper (some selectors) children
      return own ++ nested
    return body.close selectors
  | .declare property values important span => declare enclosing property values important span
  | .mixin name params ⟨body, _⟩ _ => do
    change (·.defineMixin ⟨name, params.map Ident.name, body⟩)
    return .empty
  | .expand name args span => expand deeper enclosing name args span
  | .importFile path span => importFile setting deeper enclosing path span
  | .extend _ _ => return .empty
  | .branch condition ⟨yes, _⟩ no _ => do
    if ← truthOf condition then within (·.push) (runAll setting deeper enclosing yes)
    else
      match no with
      | some ⟨statements, _⟩ => within (·.push) (runAll setting deeper enclosing statements)
      | none => return .empty
  | .expr value => do
    let _ ← valueOf value
    return .empty

/-- Runs statements one after another, up to the first error. -/
def runAll (setting : Setting) (deeper : Enclosing → List Stmt → Evaluation Output)
    (enclosing : Enclosing) : List Stmt → Evaluation Output
  | [] => return .empty
  | s :: rest => do
    let first ← run setting deeper enclosing s
    let others ← runAll setting deeper enclosing rest
    return first ++ others

end

/-- Runs statements, with mixins and imports nested up to a depth. -/
def runUpTo (setting : Setting) : Nat → Enclosing → List Stmt → Evaluation Output
  | 0, _, _ => tooDeep
  | depth + 1, enclosing, statements =>
    runAll setting (runUpTo setting depth) enclosing statements

/-- Runs one statement outside every ruleset. -/
def runTop (setting : Setting) (s : Stmt) : Evaluation Output :=
  run setting (runUpTo setting setting.maxDepth) none s

end Evaluation

end StyleSheet

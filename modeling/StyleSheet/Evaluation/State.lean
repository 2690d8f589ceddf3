import StyleSheet.Evaluation.Error
import StyleSheet.Scope

/-!
# The state of an evaluation

An evaluation reads and changes a state and ends with a result, with an error, or because
expansions and imports nest deeper than it may go.  The state stays what it was at the end, also
after an error: what has been bound by then stays bound.
-/

namespace StyleSheet

/-- An import under way, with the stack that waits for its end. -/
structure Pending where
  path : String
  importer : Stack
  deriving DecidableEq

namespace Evaluation

structure State where
  env : Environment
  /-- The imports under way, innermost first. -/
  pending : List Pending

namespace State

def initial : State := ⟨.initial, []⟩

/-- The scopes on the stack and on the stacks that wait for an import. -/
def holders (s : State) : List ScopeId :=
  s.env.stack.toList ++ s.pending.flatMap (·.importer.toList)

/-- Whether a scope still lives. -/
def isAlive (s : State) (id : ScopeId) : Bool := s.env.scopes.isAlive s.holders id

/-- Whether a file is being imported. -/
def isImporting (s : State) (path : String) : Bool := s.pending.any (·.path == path)

/-- Starts an import: the file is evaluated with only the global scope on the stack. -/
def beginImport (s : State) (path : String) : State :=
  ⟨{ s.env with stack := s.env.stack.bottom }, ⟨path, s.env.stack⟩ :: s.pending⟩

/-- Ends the innermost import and goes on with the stack that waited for it. -/
def endImport (s : State) : State :=
  match s.pending with
  | [] => s
  | p :: rest => ⟨{ s.env with stack := p.importer }, rest⟩

end State

inductive Outcome (α : Type) where
  | ok (a : α)
  | failed (e : EvalError)
  | tooDeep
  deriving DecidableEq

end Evaluation

/-- A computation on the state of an evaluation. -/
def Evaluation (α : Type) : Type :=
  Evaluation.State → Evaluation.Outcome α × Evaluation.State

namespace Evaluation

variable {α β : Type}

protected def pure (a : α) : Evaluation α := fun s => (.ok a, s)

protected def bind (x : Evaluation α) (f : α → Evaluation β) : Evaluation β := fun s =>
  match x s with
  | (.ok a, t) => f a t
  | (.failed e, t) => (.failed e, t)
  | (.tooDeep, t) => (.tooDeep, t)

instance : Monad Evaluation where
  pure := Evaluation.pure
  bind := Evaluation.bind

def fail (fault : Fault) (span : Span) : Evaluation α := fun s => (.failed (.raised fault span), s)

def tooDeep : Evaluation α := fun s => (.tooDeep, s)

def ofExcept : Except EvalError α → Evaluation α
  | .ok a => pure a
  | .error e => fun s => (.failed e, s)

def state : Evaluation State := fun s => (.ok s, s)

/-- Changes the scopes and the stack. -/
def change (f : Environment → Environment) : Evaluation Unit :=
  fun s => (.ok (), { s with env := f s.env })

/-- Runs in a scope that is entered before and left after, whatever the outcome. -/
def within (enter : Environment → Environment) (x : Evaluation α) : Evaluation α := fun s =>
  match x { s with env := enter s.env } with
  | (outcome, t) => (outcome, { t with env := t.env.pop })

/-- Runs as an import; an error is marked with it. -/
def importing (path : String) (span : Span) (x : Evaluation α) : Evaluation α := fun s =>
  match x (s.beginImport path) with
  | (.failed e, t) => (.failed (.inImport path e span), t.endImport)
  | (outcome, t) => (outcome, t.endImport)

end Evaluation

end StyleSheet

import StyleSheet.Evaluation.Statement

/-!
# Sessions

A session evaluates statements one after another in a global scope that lasts.  The blocks of
statements that succeed wait in a queue until the output is taken.
-/

namespace StyleSheet

open Evaluation (Outcome State)

structure Session where
  state : State
  /-- Finished blocks that were not taken yet. -/
  queue : List String

namespace Session

def initial : Session := ⟨.initial, []⟩

/-- Evaluates an expression in the innermost scope. -/
def expression (s : Session) (e : Expr) : Except EvalError Value := e.value s.state.env.lookup

/-- Evaluates a statement.  An expression gives its value.  All else gives nothing and puts its
blocks into the queue, or none at all if it fails. -/
def statement (s : Session) (setting : Setting) (stmt : Stmt) : Outcome Value × Session :=
  match stmt with
  | .expr e =>
    match s.expression e with
    | .ok v => (.ok v, s)
    | .error e => (.failed e, s)
  | stmt =>
    match Evaluation.runTop setting stmt s.state with
    | (.ok out, state) => (.ok .nothing, ⟨state, s.queue ++ out.blocks⟩)
    | (.failed e, state) => (.failed e, ⟨state, s.queue⟩)
    | (.tooDeep, state) => (.tooDeep, ⟨state, s.queue⟩)

/-- The blocks in the queue as text. -/
def output (s : Session) : String := "\n".intercalate s.queue

/-- The session with nothing in the queue. -/
def drained (s : Session) : Session := { s with queue := [] }

/-- Takes the output. -/
def takeOutput (s : Session) : String × Session := (s.output, s.drained)

/-- Evaluates statements and takes the output.  After an error the queue is empty. -/
def program (s : Session) (setting : Setting) (sheet : Sheet) : Outcome String × Session :=
  match sheet with
  | [] => (.ok s.output, s.drained)
  | stmt :: rest =>
    match s.statement setting stmt with
    | (.ok _, next) => next.program setting rest
    | (.failed e, next) => (.failed e, next.drained)
    | (.tooDeep, next) => (.tooDeep, next.drained)

end Session

end StyleSheet

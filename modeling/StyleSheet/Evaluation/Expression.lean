import StyleSheet.Evaluation.Error
import StyleSheet.Sheet

/-!
# Values of expressions

The value of an expression depends only on the values of the variables in it.
-/

namespace StyleSheet.Expr

/-- The result of an operation, or its fault at a place. -/
def located (span : Span) : Except Value.ArithmeticError Value → Except EvalError Value
  | .ok v => .ok v
  | .error e => .error (.raised (.ofArithmetic e) span)

/-- The value of an expression.  Operands are evaluated from left to right and the first fault
counts. -/
def value (lookup : String → Option Value) : Expr → Except EvalError Value
  | var name span =>
    match lookup name with
    | some v => .ok v
    | none => .error (.raised (.undefinedVariable name) span)
  | number x unit _ => .ok (.ofNumeric x unit)
  | text s _ => .ok (.text s)
  | color s _ => .ok (.color s)
  | bool b _ => .ok (.bool b)
  | negate operand span => do located span (← operand.value lookup).negate
  | binary op left right span => do
    let x ← left.value lookup
    let y ← right.value lookup
    located span (x.binary op y)
  | selector token => .ok (.text token.text)

/-- The values of several expressions, up to the first fault. -/
def values (lookup : String → Option Value) : List Expr → Except EvalError (List Value)
  | [] => .ok []
  | e :: rest => do return (← e.value lookup) :: (← values lookup rest)

end StyleSheet.Expr

import StyleSheet.Operator
import StyleSheet.Value

/-!
# Arithmetic on values

A plain number takes the unit of the other operand, two dimensions have to agree in their units,
and the quotient of two dimensions is a plain number.  Adding to a text or a colour joins the
shown texts.
-/

namespace StyleSheet.Value

/-- An operation on operands it is not made for. -/
inductive Misuse where
  | binary (op : Operator) (left right : Shape)
  | negation (operand : Shape)
  | condition (operand : Shape)
  deriving DecidableEq

namespace Misuse

def operation : Misuse → String
  | binary op _ _ => op.symbol
  | negation _ => "-"
  | condition _ => "@if"

def operands : Misuse → String
  | binary _ left right => left.describe ++ " and " ++ right.describe
  | negation operand | condition operand => operand.name

end Misuse

/-- Why an operation has no result. -/
inductive ArithmeticError where
  | misuse (m : Misuse)
  | divisionByZero
  deriving DecidableEq

/-- The units of two numeric operands as one; none if they differ. -/
def commonUnit? : Option String → Option String → Option (Option String)
  | some u, some v => if u = v then some (some u) else none
  | some u, none | none, some u => some (some u)
  | none, none => some none

/-- The magnitudes of two numeric operands and their common unit. -/
def numericOperands? (left right : Value) : Option (Float × Float × Option String) :=
  match left.numeric?, right.numeric? with
  | some (x, u), some (y, v) => (commonUnit? u v).map fun unit => (x, y, unit)
  | _, _ => none

def mismatch (op : Operator) (left right : Value) : ArithmeticError :=
  .misuse (.binary op left.shape right.shape)

/-- Numbers are equal in magnitude and unit, all else in kind and content. -/
def equal (left right : Value) : Bool :=
  match left.numeric?, right.numeric? with
  | some (x, u), some (y, v) => x == y && u == v
  | _, _ => left.same right

/-- Whether both operands are dimensions. -/
def areDimensions : Value → Value → Bool
  | dimension .., dimension .. => true
  | _, _ => false

/-- The quotient of two magnitudes.  A plain number cannot be divided by a dimension. -/
def quotient (left right : Value) (x y : Float) (unit : Option String) :
    Except ArithmeticError Value :=
  if y == 0 then .error .divisionByZero
  else
    match left, right with
    | dimension .., dimension .. => .ok (.number (x / y))
    | number _, dimension .. => .error (mismatch .div left right)
    | _, _ => .ok (ofNumeric (x / y) unit)

/-- An operation on the magnitudes and the common unit of two numeric operands. -/
def onNumbers (op : Operator) (left right : Value)
    (f : Float → Float → Option String → Except ArithmeticError Value) :
    Except ArithmeticError Value :=
  match numericOperands? left right with
  | some (x, y, unit) => f x y unit
  | none => .error (mismatch op left right)

/-- The value of a binary operation. -/
def binary (op : Operator) (left right : Value) : Except ArithmeticError Value :=
  match op with
  | .equal => .ok (.bool (left.equal right))
  | .notEqual => .ok (.bool (!left.equal right))
  | .less => onNumbers op left right fun x y _ => .ok (.bool (x < y))
  | .greater => onNumbers op left right fun x y _ => .ok (.bool (y < x))
  | .add =>
    if left.isTextual || right.isTextual then .ok (.text (left.shown ++ right.shown))
    else onNumbers op left right fun x y unit => .ok (ofNumeric (x + y) unit)
  | .sub => onNumbers op left right fun x y unit => .ok (ofNumeric (x - y) unit)
  | .mul =>
    onNumbers op left right fun x y unit =>
      if areDimensions left right then .error (mismatch op left right)
      else .ok (ofNumeric (x * y) unit)
  | .div => onNumbers op left right (quotient left right)

/-- The value of a negation. -/
def negate : Value → Except ArithmeticError Value
  | number x => .ok (.number (-x))
  | dimension x unit => .ok (.dimension (-x) unit)
  | v => .error (.misuse (.negation v.shape))

end StyleSheet.Value

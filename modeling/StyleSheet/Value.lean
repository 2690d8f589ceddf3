import StyleSheet.Number

/-!
# Values

What expressions evaluate to.  A value is shown in the output as written, except that numbers
have one decimal place.
-/

namespace StyleSheet

inductive Value where
  | number (x : Float)
  /-- A number with a unit such as `px` or `%`. -/
  | dimension (x : Float) (unit : String)
  | text (s : String)
  | color (s : String)
  | bool (b : Bool)
  /-- The result of a statement that has no value. -/
  | nothing

namespace Value

/-- The kind of a value and, for a dimension, its unit. -/
inductive Shape where
  | number
  | dimension (unit : String)
  | text
  | color
  | bool
  | nothing
  deriving DecidableEq

namespace Shape

def name : Shape → String
  | number => "number"
  | dimension _ => "dimension"
  | text => "string"
  | color => "colour"
  | bool => "boolean"
  | nothing => "unit"

/-- The name, with the unit of a dimension. -/
def describe : Shape → String
  | dimension unit => "dimension (" ++ unit ++ ")"
  | s => s.name

end Shape

def shape : Value → Shape
  | number _ => .number
  | dimension _ unit => .dimension unit
  | text _ => .text
  | color _ => .color
  | bool _ => .bool
  | nothing => .nothing

/-- The magnitude of a number or a dimension, with its unit. -/
def numeric? : Value → Option (Float × Option String)
  | number x => some (x, none)
  | dimension x unit => some (x, some unit)
  | _ => none

/-- A number, with a unit or without. -/
def ofNumeric (x : Float) : Option String → Value
  | some unit => dimension x unit
  | none => number x

def isTextual : Value → Bool
  | text _ | color _ => true
  | _ => false

/-- Same kind and same content; magnitudes are compared as doubles. -/
def same : Value → Value → Bool
  | number x, number y => x == y
  | dimension x u, dimension y v => x == y && u == v
  | text s, text t => s == t
  | color s, color t => s == t
  | bool a, bool b => a == b
  | nothing, nothing => true
  | _, _ => false

/-- A value as the output shows it. -/
def shown : Value → String
  | number x => Number.text x
  | dimension x unit => Number.text x ++ unit
  | text s | color s => s
  | bool b => if b then "true" else "false"
  | nothing => ""

end Value

end StyleSheet

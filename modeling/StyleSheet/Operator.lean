import StyleSheet.Token

/-!
# Operators

The binary operators and how strongly they bind.
-/

namespace StyleSheet

inductive Operator where
  | add
  | sub
  | mul
  | div
  | equal
  | notEqual
  | less
  | greater
  deriving DecidableEq

namespace Operator

/-- How strongly an operator binds, weakest first. -/
inductive Precedence where
  | lowest
  | equality
  | order
  | sum
  | product
  | unary
  deriving DecidableEq

namespace Precedence

def rank : Precedence → Nat
  | lowest => 0
  | equality => 1
  | order => 2
  | sum => 3
  | product => 4
  | unary => 5

end Precedence

/-- The operator that a token between two operands stands for. -/
def ofKind? : Token.Kind → Option Operator
  | .plus => some add
  | .minus => some sub
  | .star => some mul
  | .slash => some div
  | .equal => some equal
  | .notEqual => some notEqual
  | .less => some less
  | .greater => some greater
  | _ => none

def symbol : Operator → String
  | add => "+"
  | sub => "-"
  | mul => "*"
  | div => "/"
  | equal => "=="
  | notEqual => "!="
  | less => "<"
  | greater => ">"

def precedence : Operator → Precedence
  | equal | notEqual => .equality
  | less | greater => .order
  | add | sub => .sum
  | mul | div => .product

def isComparison : Operator → Bool
  | equal | notEqual | less | greater => true
  | _ => false

end Operator

end StyleSheet

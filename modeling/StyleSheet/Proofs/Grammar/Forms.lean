import Mathlib.Tactic.Lemma
import StyleSheet.Operator

/-!
# The forms of the grammar

The grammar of sheets as relations between kinds of tokens.  A form relates the kinds that are left
before it to those that are left after it, so `Expression ks rest` says that `ks` is an expression
followed by `rest`.  Where a semicolon can be left out depends on the token that follows, which is
the first of `rest`.

```
sheet     ::= (';' | statement)*
statement ::= variable ':' expression (!global | !default)* end
            | property ':' expression expression* [!important] end
            | @import string end
            | @mixin name ['(' [variable (',' variable)* [',']] ')'] block
            | @include name ['(' [expression (',' expression)* [',']] ')'] end
            | @extend (selector | string)+ end
            | conditional
            | simple-selector (selector | ',')* block
            | expression end                        -- not starting with a simple selector
conditional ::= @if expression block [@else (conditional | block)]
block     ::= '{' (';' | statement)* '}'
end       ::= ';', or nothing before '}' and at the end
expression ::= operand (operator operand)*
operand   ::= '-' operand | '(' expression ')' | atom
```
-/

namespace StyleSheet.Sheet.Form

abbrev Kinds := List Token.Kind

/-! ### Single tokens -/

/-- Operands of one token. -/
def IsAtom (k : Token.Kind) : Prop :=
  k = .variableName ∨ k = .number ∨ k = .string ∨ k = .color ∨ k = .litTrue ∨ k = .litFalse ∨
    k.isSelector = true

/-- Names of mixins. -/
def IsName (k : Token.Kind) : Prop :=
  k = .string ∨ k = .color ∨ k = .typeSelector ∨ k = .property

def IsFlag (k : Token.Kind) : Prop := k = .keyword .bangGlobal ∨ k = .keyword .bangDefault

/-- What the header of a ruleset goes on with. -/
def IsHeaderPart (k : Token.Kind) : Prop := k.isSelector = true ∨ k = .comma

/-- What `@extend` is followed by. -/
def IsTargetPart (k : Token.Kind) : Prop := k.isSelector = true ∨ k = .string

/-- One token of a class. -/
inductive One (p : Token.Kind → Prop) : Kinds → Kinds → Prop
  | mk {k : Token.Kind} {rest : Kinds} (hk : p k) : One p (k :: rest) rest

/-- The end of a statement. -/
inductive End : Kinds → Kinds → Prop
  | semicolon {rest : Kinds} : End (.semicolon :: rest) rest
  | brace {rest : Kinds} : End (.rightBrace :: rest) (.rightBrace :: rest)
  | input : End [] []

/-! ### Repetition -/

/-- Any number of items. -/
inductive Many (item : Kinds → Kinds → Prop) : Kinds → Kinds → Prop
  | nil {ks : Kinds} : Many item ks ks
  | cons {ks mid rest : Kinds} (first : item ks mid) (others : Many item mid rest) :
    Many item ks rest

/-- A token that can be left out. -/
inductive Optional (k : Token.Kind) : Kinds → Kinds → Prop
  | absent {ks : Kinds} : Optional k ks ks
  | present {rest : Kinds} : Optional k (k :: rest) rest

/-- Items with commas between them; a comma can follow the last. -/
inductive Separated (item : Kinds → Kinds → Prop) : Kinds → Kinds → Prop
  | nil {ks : Kinds} : Separated item ks ks
  | last {ks rest : Kinds} (only : item ks rest) : Separated item ks rest
  | cons {ks mid rest : Kinds} (first : item ks (.comma :: mid))
    (others : Separated item mid rest) : Separated item ks rest

/-- Separated items between parentheses, or nothing at all. -/
inductive Parenthesized (item : Kinds → Kinds → Prop) : Kinds → Kinds → Prop
  | absent {ks : Kinds} : Parenthesized item ks ks
  | present {ks rest : Kinds} (items : Separated item ks (.rightParen :: rest)) :
    Parenthesized item (.leftParen :: ks) rest

/-! ### Expressions -/

mutual

inductive Operand : Kinds → Kinds → Prop
  | negated {ks rest : Kinds} (operand : Operand ks rest) : Operand (.minus :: ks) rest
  | enclosed {ks rest : Kinds} (inner : Expression ks (.rightParen :: rest)) :
    Operand (.leftParen :: ks) rest
  | atom {k : Token.Kind} {rest : Kinds} (hk : IsAtom k) : Operand (k :: rest) rest

/-- An operand, and operators with operands. -/
inductive Expression : Kinds → Kinds → Prop
  | mk {ks mid rest : Kinds} (first : Operand ks mid) (others : Operations mid rest) :
    Expression ks rest

/-- Any number of operators, each with its right operand. -/
inductive Operations : Kinds → Kinds → Prop
  | nil {ks : Kinds} : Operations ks ks
  | cons {k : Token.Kind} {op : Operator} {ks mid rest : Kinds}
    (hop : Operator.ofKind? k = some op) (right : Operand ks mid) (others : Operations mid rest) :
    Operations (k :: ks) rest

end

/-! ### Statements -/

mutual

inductive Statement : Kinds → Kinds → Prop
  | assignment {ks flags fin rest : Kinds} (value : Expression ks flags)
    (flagged : Many (One IsFlag) flags fin) (ends : End fin rest) :
    Statement (.variableName :: .colon :: ks) rest
  | declaration {ks values mark fin rest : Kinds} (first : Expression ks values)
    (others : Many Expression values mark)
    (important : Optional (.keyword .bangImportant) mark fin) (ends : End fin rest) :
    Statement (.property :: .colon :: ks) rest
  | importation {ks rest : Kinds} (ends : End ks rest) :
    Statement (.keyword .atImport :: .string :: ks) rest
  | mixin {k : Token.Kind} {ks body rest : Kinds} (hk : IsName k)
    (params : Parenthesized (One (· = .variableName)) ks body) (block : Block body rest) :
    Statement (.keyword .atMixin :: k :: ks) rest
  | expansion {k : Token.Kind} {ks fin rest : Kinds} (hk : IsName k)
    (args : Parenthesized Expression ks fin) (ends : End fin rest) :
    Statement (.keyword .atInclude :: k :: ks) rest
  | extension {k : Token.Kind} {ks fin rest : Kinds} (hk : IsTargetPart k)
    (others : Many (One IsTargetPart) ks fin) (ends : End fin rest) :
    Statement (.keyword .atExtend :: k :: ks) rest
  | conditional {ks rest : Kinds} (cond : Conditional ks rest) : Statement ks rest
  | ruleset {k : Token.Kind} {ks body rest : Kinds} (hk : k.isSimpleSelector = true)
    (header : Many (One IsHeaderPart) ks body) (block : Block body rest) :
    Statement (k :: ks) rest
  | expression {k : Token.Kind} {ks fin rest : Kinds} (hk : k.isSimpleSelector = false)
    (value : Expression (k :: ks) fin) (ends : End fin rest) : Statement (k :: ks) rest

inductive Conditional : Kinds → Kinds → Prop
  | plain {ks body rest : Kinds} (condition : Expression ks body) (yes : Block body rest) :
    Conditional (.keyword .atIf :: ks) rest
  | otherwise {ks body no rest : Kinds} (condition : Expression ks body)
    (yes : Block body (.keyword .atElse :: no)) (block : Block no rest) :
    Conditional (.keyword .atIf :: ks) rest
  | chained {ks body no rest : Kinds} (condition : Expression ks body)
    (yes : Block body (.keyword .atElse :: no)) (next : Conditional no rest) :
    Conditional (.keyword .atIf :: ks) rest

inductive Block : Kinds → Kinds → Prop
  | mk {ks rest : Kinds} (statements : Statements ks (.rightBrace :: rest)) :
    Block (.leftBrace :: ks) rest

/-- Any number of statements and lone semicolons. -/
inductive Statements : Kinds → Kinds → Prop
  | nil {ks : Kinds} : Statements ks ks
  | semicolon {ks rest : Kinds} (others : Statements ks rest) :
    Statements (.semicolon :: ks) rest
  | cons {ks mid rest : Kinds} (first : Statement ks mid) (others : Statements mid rest) :
    Statements ks rest

end

/-- Kinds of tokens that make up a sheet. -/
def IsSheet (ks : Kinds) : Prop := Statements ks []

end StyleSheet.Sheet.Form

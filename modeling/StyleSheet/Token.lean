import StyleSheet.Keyword
import StyleSheet.Span
import StyleSheet.Text.Quoted

/-!
# Tokens

A token is a piece of source text with its kind and place.  The text is kept as written;
nothing is normalised when it is scanned.
-/

namespace StyleSheet

namespace Token

/-- The lexical categories. -/
inductive Kind where
  | leftBrace
  | rightBrace
  | leftParen
  | rightParen
  | semicolon
  | comma
  | colon
  | plus
  | minus
  | star
  | slash
  | equal
  | notEqual
  | less
  | greater
  | number
  | string
  | color
  | litTrue
  | litFalse
  | variableName
  | typeSelector
  | classSelector
  | idSelector
  | attributeSelector
  | childCombinator
  | descendantCombinator
  | stateSelector
  | subcontrolSelector
  | placeholderSelector
  | parentReference
  | property
  | keyword (k : Keyword)
  | eof
  deriving DecidableEq

namespace Kind

/-- The name under which listings show the kind. -/
def name : Kind → String
  | leftBrace => "LeftBrace"
  | rightBrace => "RightBrace"
  | leftParen => "LeftParen"
  | rightParen => "RightParen"
  | semicolon => "Semicolon"
  | comma => "Comma"
  | colon => "Assign"
  | plus => "Plus"
  | minus => "Sub"
  | star => "Mul"
  | slash => "Div"
  | equal => "Eq"
  | notEqual => "NotEq"
  | less => "Lt"
  | greater => "Gt"
  | number => "Number"
  | string => "String"
  | color => "Color"
  | litTrue => "True"
  | litFalse => "False"
  | variableName => "Identifier"
  | typeSelector => "TypeSelector"
  | classSelector => "ClassSelector"
  | idSelector => "IdSelector"
  | attributeSelector => "PropertySelector"
  | childCombinator => "ChildSelector"
  | descendantCombinator => "GeneralSelector"
  | stateSelector => "ProdoSelector"
  | subcontrolSelector => "SubwidgetSelector"
  | placeholderSelector => "PlaceholderSelector"
  | parentReference => "ParentReference"
  | property => "Property"
  | keyword k => k.name
  | eof => "Eof"

/-- Every kind, in listing order. -/
def all : List Kind :=
  [leftBrace, rightBrace, leftParen, rightParen, semicolon, comma, colon, plus, minus, star,
    slash, equal, notEqual, less, greater, number, string, color, litTrue, litFalse,
    variableName, typeSelector, classSelector, idSelector, attributeSelector,
    childCombinator, descendantCombinator, stateSelector, subcontrolSelector,
    placeholderSelector, parentReference, property] ++ Keyword.all.map keyword ++ [eof]

/-- The kind shown under a name. -/
def ofName? (s : String) : Option Kind :=
  all.find? (fun k => k.name == s)

/-- How an error message speaks of the kind. -/
def describe : Kind → String
  | leftBrace => "`\x7b`"
  | rightBrace => "`\x7d`"
  | leftParen => "`(`"
  | rightParen => "`)`"
  | semicolon => "`;`"
  | comma => "`,`"
  | colon => "`:`"
  | plus => "`+`"
  | minus => "`-`"
  | star => "`*`"
  | slash => "`/`"
  | equal => "`==`"
  | notEqual => "`!=`"
  | less => "`<`"
  | greater => "`>`"
  | number => "a number"
  | string => "a string"
  | color => "a colour"
  | litTrue => "`true`"
  | litFalse => "`false`"
  | variableName => "a variable"
  | typeSelector => "a type selector"
  | classSelector => "a class selector"
  | idSelector => "an id selector"
  | attributeSelector => "a property selector"
  | childCombinator => "a child combinator"
  | descendantCombinator => "a descendant combinator"
  | stateSelector => "a pseudo-state selector"
  | subcontrolSelector => "a sub-control selector"
  | placeholderSelector => "a placeholder selector"
  | parentReference => "`&`"
  | property => "a property name"
  | keyword k => "`" ++ k.spelling ++ "`"
  | eof => "end of input"

/-- Selectors that name something; only these can be followed by a combinator, and only
these start a ruleset. -/
def isSimpleSelector : Kind → Bool
  | typeSelector | classSelector | idSelector | attributeSelector | stateSelector
  | subcontrolSelector | placeholderSelector | parentReference => true
  | _ => false

/-- Kinds that can stand in the header of a ruleset, commas apart. -/
def isSelector : Kind → Bool
  | childCombinator | descendantCombinator => true
  | k => k.isSimpleSelector

def isKeyword : Kind → Bool
  | keyword _ => true
  | _ => false

end Kind

end Token

/-- A piece of source text with its kind and place. -/
structure Token where
  kind : Token.Kind
  text : String
  span : Span
  deriving DecidableEq

namespace Token

/-- The token for the end of the input. -/
def endOfInput (span : Span) : Token := ⟨.eof, "", span⟩

/-- A token as listings show it. -/
def listing (t : Token) : String :=
  t.kind.name ++ "(" ++ Text.quoted t.text ++ ") @ " ++ t.span.text

end Token

namespace Keyword.Table

/-- Adds a spelling for a kind of token; only keywords can have further spellings. -/
def insertKind (t : Table) (word : String) : Token.Kind → Table
  | .keyword k => t.insert word k
  | _ => t

end Keyword.Table

end StyleSheet

import StyleSheet.Token.Scanner

/-!
# Errors of reading

Why a text is not a sheet.  An error knows its place in the text and how it is reported.
-/

namespace StyleSheet.Sheet

/-- What a token should have been. -/
inductive Wanted where
  | token (kind : Token.Kind)
  | mixinName
  | selector
  deriving DecidableEq

namespace Wanted

def describe : Wanted → String
  | token kind => kind.describe
  | mixinName => "a mixin name"
  | selector => "a selector"

end Wanted

/-- The pairs that have to be closed. -/
inductive Delimiter where
  | brace
  | paren
  deriving DecidableEq

namespace Delimiter

def opener : Delimiter → Token.Kind
  | brace => .leftBrace
  | paren => .leftParen

def closer : Delimiter → Token.Kind
  | brace => .rightBrace
  | paren => .rightParen

end Delimiter

/-- Why a text is not a sheet. -/
inductive ReadError where
  | scan (error : Token.ScanError)
  /-- Another token was wanted. -/
  | unexpected (wanted : Wanted) (found : Token.Kind) (span : Span)
  /-- No expression starts with the token. -/
  | expectedExpression (found : Token.Kind) (span : Span)
  /-- The input ends before the delimiter opened at the span is closed. -/
  | unclosed (delimiter : Delimiter) (span : Span)
  deriving DecidableEq

namespace ReadError

def span : ReadError → Span
  | scan e => e.span
  | unexpected _ _ span | expectedExpression _ span | unclosed _ span => span

def code : ReadError → Diagnostic.Code
  | scan e => e.code
  | unexpected .. => .unexpectedToken
  | expectedExpression .. => .expectedExpression
  | unclosed .. => .unclosedDelimiter

def message : ReadError → String
  | scan e => e.message
  | unexpected wanted found _ => "expected " ++ wanted.describe ++ ", found " ++ found.describe
  | expectedExpression found _ => "expected expression, found " ++ found.describe
  | unclosed delimiter _ => "unclosed " ++ delimiter.opener.describe

def diagnostic : ReadError → Diagnostic
  | scan e => e.diagnostic
  | e@(unexpected wanted ..) =>
    .single e.code e.message e.span ("expected " ++ wanted.describe ++ " here")
  | e@(expectedExpression ..) => .single e.code e.message e.span "not an expression"
  | e@(unclosed delimiter _) =>
    { Diagnostic.single e.code e.message e.span (delimiter.opener.describe ++ " opened here") with
      notes := ["input ended before the matching close"] }

end ReadError

end StyleSheet.Sheet

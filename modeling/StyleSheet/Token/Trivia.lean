/-!
# Trivia

Blanks and comments between tokens.  A line comment ends before the next line feed, a block
comment after the next `*/`, and either ends with the text.  The search for `*/` begins at the
star that opens the comment, so that `/*/` is a comment of its own.

Scanning walks the text once, and a comment is the state of the walk inside one.
-/

namespace StyleSheet.Token

/-- Spaces, tabs and line ends. -/
def isBlank (c : Char) : Bool := c == ' ' || c == '\t' || c == '\n' || c == '\r'

/-- Where a walk stands inside a comment. -/
inductive Comment where
  /-- In a comment that ends with the line. -/
  | line
  /-- In a block comment. -/
  | block
  /-- At the slash that ends a block comment. -/
  | closing
  deriving DecidableEq

namespace Comment

/-- The comment that opens with the character `c` before `rest`. -/
def opens (c : Char) (rest : List Char) : Option Comment :=
  if c == '/' then
    match rest.head? with
    | some '/' => some line
    | some '*' => some block
    | _ => none
  else none

/-- The state after the character `c` before `rest`; none where the comment is over. -/
def next (c : Char) (rest : List Char) : Comment → Option Comment
  | line => if c == '\n' then none else some line
  | block => if c == '*' && rest.head? == some '/' then some closing else some block
  | closing => none

end Comment

/-- The number of characters of trivia at the start of a text, for a walk that stands between
tokens or inside a comment. -/
def triviaSize : Option Comment → List Char → Nat
  | _, [] => 0
  | some k, c :: rest => triviaSize (k.next c rest) rest + 1
  | none, c :: rest =>
    if isBlank c then triviaSize none rest + 1
    else
      match Comment.opens c rest with
      | some k => triviaSize (some k) rest + 1
      | none => 0

end StyleSheet.Token

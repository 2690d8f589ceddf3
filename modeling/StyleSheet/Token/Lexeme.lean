import StyleSheet.Color
import StyleSheet.Token
import StyleSheet.Token.Trivia

/-!
# Lexemes

How many characters the token at the start of a text has, and of which kind it is.  A
recogniser only counts: the scanner cuts the text once, so that no character is lost or read
twice.

The same word can be a selector, a property name or a value.  Two things decide: the kind of
the token before it, and whether the text up to the next `{` holds nothing but characters of
selectors.
-/

namespace StyleSheet.Token

/-! ### Characters -/

def isNameStart (c : Char) : Bool := c.isAlpha || c == '_'

def isNameChar (c : Char) : Bool := c.isAlphanum || c == '-' || c == '_'

def isHexDigit (c : Char) : Bool :=
  c.isDigit || ('a' ≤ c && c ≤ 'f') || ('A' ≤ c && c ≤ 'F')

/-- Characters that can start a selector after a descendant combinator. -/
def startsSelector (c : Char) : Bool :=
  isNameStart c || c == '.' || c == '#' || c == '*' || c == '%' || c == '&'

/-- Characters that can stand in the header of a ruleset outside quotes. -/
def isSelectorChar (c : Char) : Bool :=
  isNameChar c || isBlank c || c == '.' || c == '#' || c == '*' || c == '>' || c == '[' ||
    c == ']' || c == '=' || c == ':' || c == '!' || c == '&' || c == ',' || c == '%'

/-- Whether the text starts with a character of a class. -/
def headIs (p : Char → Bool) : List Char → Bool
  | c :: _ => p c
  | [] => false

/-- The number of characters of a class at the start of a text. -/
def runSize (p : Char → Bool) (cs : List Char) : Nat := (cs.takeWhile p).length

/-! ### The look ahead for a header -/

/-- Where the look ahead for a header stands. -/
inductive Lookahead where
  /-- Under so many open brackets. -/
  | plain (depth : Nat)
  /-- Between quotes, under so many open brackets. -/
  | quoted (depth : Nat) (quote : Char)
  | comment (k : Comment)

/-- Whether the text up to the next `{` is made of characters of selectors only and is not
ended by `;` or `}`.  Comments count as blanks outside brackets, quotes are allowed inside
brackets, and the `{` has to stand outside of them. -/
def headerAhead : Lookahead → List Char → Bool
  | _, [] => false
  | .quoted depth quote, c :: rest =>
    headerAhead (if c == quote then .plain depth else .quoted depth quote) rest
  | .comment k, c :: rest =>
    match k.next c rest with
    | some k => headerAhead (.comment k) rest
    | none => headerAhead (.plain 0) rest
  | .plain depth, c :: rest =>
    match if depth = 0 then Comment.opens c rest else none with
    | some k => headerAhead (.comment k) rest
    | none =>
      if c == '{' then depth == 0
      else if c == '[' then headerAhead (.plain (depth + 1)) rest
      else if c == ']' then headerAhead (.plain (depth - 1)) rest
      else if (c == '"' || c == '\'') && 0 < depth then headerAhead (.quoted depth c) rest
      else isSelectorChar c && headerAhead (.plain depth) rest

/-- Whether a selector can follow a token of this kind; none stands for the start of the
text. -/
def selectorMayFollow : Option Kind → Bool
  | none => true
  | some .semicolon | some .leftBrace | some .rightBrace | some .comma
  | some .descendantCombinator | some .childCombinator => true
  | _ => false

/-- Whether a declaration can follow a token of this kind. -/
def declarationMayFollow : Option Kind → Bool
  | none => true
  | some .semicolon | some .leftBrace | some .rightBrace => true
  | _ => false

/-- Whether a selector starts at the text, as the token before it and the header ahead say. -/
def selectorStarts (previous : Option Kind) (cs : List Char) : Bool :=
  selectorMayFollow previous && headerAhead (.plain 0) cs

/-! ### Compound selectors -/

/-- Where a walk over a compound selector stands. -/
inductive CompoundState where
  /-- In a name. -/
  | name
  /-- Before a character that belongs to the mark of a part: the second colon of a
  sub-control or the negation of a state. -/
  | mark
  /-- After an attribute. -/
  | boundary
  /-- In an attribute whose bracket stands after `opened` characters, maybe between
  quotes. -/
  | bracket (opened : Nat) (quote : Option Char)

/-- A compound selector: its number of characters, and which parts it has. -/
structure Compound where
  size : Nat
  hasAttribute : Bool
  hasState : Bool
  hasSubcontrol : Bool

namespace Compound

def empty : Compound := ⟨0, false, false, false⟩

/-- One character more. -/
def grow (s : Compound) : Compound := { s with size := s.size + 1 }

/-- The part that starts with the character `c` before `rest`, with the selector grown by
that character. -/
def startPart (s : Compound) (c : Char) (rest : List Char) : Option (CompoundState × Compound) :=
  if c == '[' then some (.bracket s.size none, s.grow)
  else if c == ':' then
    match rest with
    | ':' :: d :: _ =>
      if isNameStart d then some (.mark, { s.grow with hasSubcontrol := true }) else none
    | '!' :: _ => some (.mark, { s.grow with hasState := true })
    | d :: _ => if isNameStart d then some (.name, { s.grow with hasState := true }) else none
    | [] => none
  else if (c == '.' || c == '#') && headIs isNameStart rest then some (.name, s.grow)
  else none

/-- Walks over the parts of a compound selector.  Fails with the place of the bracket if the
text ends inside an attribute. -/
def scan : CompoundState → Compound → List Char → Except Nat Compound
  | .bracket opened _, _, [] => .error opened
  | _, s, [] => .ok s
  | .bracket opened (some q), s, c :: rest =>
    scan (.bracket opened (if c == q then none else some q)) s.grow rest
  | .bracket opened none, s, c :: rest =>
    if c == ']' then scan .boundary { s.grow with hasAttribute := true } rest
    else if c == '"' || c == '\'' then scan (.bracket opened (some c)) s.grow rest
    else scan (.bracket opened none) s.grow rest
  | .mark, s, _ :: rest => scan .name s.grow rest
  | .name, s, c :: rest =>
    if isNameChar c then scan .name s.grow rest
    else
      match s.startPart c rest with
      | some (state, s) => scan state s rest
      | none => .ok s
  | .boundary, s, c :: rest =>
    match s.startPart c rest with
    | some (state, s) => scan state s rest
    | none => .ok s

/-- The kind of a compound selector that starts with the character `c`: by its strongest part,
or else by its first character. -/
def kind (s : Compound) (c : Char) : Kind :=
  if s.hasSubcontrol then .subcontrolSelector
  else if s.hasState then .stateSelector
  else if s.hasAttribute then .attributeSelector
  else if c == '.' then .classSelector
  else if c == '#' then .idSelector
  else if c == '%' then .placeholderSelector
  else .typeSelector

end Compound

/-! ### Recognisers -/

/-- What can be left open at the end of the text. -/
inductive Enclosure where
  | quotes
  | brackets
  deriving DecidableEq

/-- Why no token starts at a character. -/
inductive LexemeError where
  /-- No token is written like the character and the `more` characters after it. -/
  | unknown (more : Nat)
  /-- Something that starts after `before` characters is not closed. -/
  | unterminated (what : Enclosure) (before : Nat)

/-- A recognised token: its kind and how many characters it has after its first. -/
structure Lexeme where
  kind : Kind
  more : Nat

/-- The compound selector that starts with `c`. -/
def selector (c : Char) (rest : List Char) : Except LexemeError Lexeme :=
  let walk :=
    if c == '.' || c == '#' || c == '%' || c == '*' then
      Compound.scan .name Compound.empty.grow rest
    else Compound.scan .name Compound.empty (c :: rest)
  match walk with
  | .ok s => .ok ⟨s.kind c, s.size - 1⟩
  | .error opened => .error (.unterminated .brackets opened)

/-- Whether a colon follows, after spaces and tabs, that is not doubled. -/
def colonFollows (cs : List Char) : Bool :=
  match cs.dropWhile (fun c => c == ' ' || c == '\t') with
  | ':' :: ':' :: _ => false
  | ':' :: _ => true
  | _ => false

/-- The number of characters of a property name with one or two leading dashes, after the
first dash. -/
def dashedSize : List Char → Nat
  | '-' :: rest => if headIs isNameStart rest then runSize isNameChar rest + 1 else 0
  | rest => if headIs isNameStart rest then runSize isNameChar rest else 0

/-- A minus sign, or a property name with leading dashes where a declaration can start. -/
def minus (previous : Option Kind) (rest : List Char) : Lexeme :=
  let size := dashedSize rest
  if declarationMayFollow previous && 0 < size && colonFollows (rest.drop size) then
    ⟨.property, size⟩
  else ⟨.minus, 0⟩

/-- A word with a mark, as the table knows it. -/
def keyword (table : Keyword.Table) (c : Char) (rest : List Char) : Except LexemeError Lexeme :=
  let size := runSize (fun c => c.isAlpha || c == '-' || c == '_') rest
  match table.lookup (String.ofList (c :: rest.take size)) with
  | some k => .ok ⟨.keyword k, size⟩
  | none => .error (.unknown size)

/-- The number of characters of a variable's name after the dollar sign.  A dash goes on with
the name only if a letter follows, so that `$a-5` is a difference. -/
def variableSize : List Char → Nat
  | [] => 0
  | c :: rest =>
    if c.isAlphanum || c == '_' || (c == '-' && headIs Char.isAlpha rest) then
      variableSize rest + 1
    else 0

def variableLexeme (rest : List Char) : Except LexemeError Lexeme :=
  if headIs isNameStart rest then .ok ⟨.variableName, variableSize rest⟩
  else .error (.unknown 0)

/-- The number of characters up to and with the closing quote.  A backslash protects the
character after it. -/
def stringSize? (quote : Char) : List Char → Option Nat
  | [] => none
  | '\\' :: _ :: rest => (stringSize? quote rest).map (· + 2)
  | c :: rest => if c == quote then some 1 else (stringSize? quote rest).map (· + 1)

def quotedString (quote : Char) (rest : List Char) : Except LexemeError Lexeme :=
  match stringSize? quote rest with
  | some size => .ok ⟨.string, size⟩
  | none => .error (.unterminated .quotes 0)

/-- The number of characters of a point with digits after it. -/
def fractionSize : List Char → Nat
  | '.' :: rest => if headIs Char.isDigit rest then runSize Char.isDigit rest + 1 else 0
  | _ => 0

/-- The number of characters of a unit: a percent sign or letters. -/
def unitSize : List Char → Nat
  | '%' :: _ => 1
  | rest => runSize Char.isAlpha rest

/-- Digits, a fraction and a unit; `rest` follows the first digit. -/
def number (rest : List Char) : Lexeme :=
  let digits := runSize Char.isDigit rest
  let fraction := fractionSize (rest.drop digits)
  ⟨.number, digits + fraction + unitSize (rest.drop (digits + fraction))⟩

/-- An id selector where a selector starts, else a colour with three, four, six or eight
digits, else an id selector if a name follows. -/
def hash (previous : Option Kind) (rest : List Char) : Except LexemeError Lexeme :=
  let digits := runSize isHexDigit rest
  if selectorStarts previous ('#' :: rest) then selector '#' rest
  else if (digits == 3 || digits == 4 || digits == 6 || digits == 8) &&
      !headIs isNameChar (rest.drop digits) then
    .ok ⟨.color, digits⟩
  else if headIs isNameStart rest then selector '#' rest
  else .error (.unknown 0)

/-- A word: a truth value, a selector where one starts, a property name before a colon, a
colour name, or else a string. -/
def word (previous : Option Kind) (c : Char) (rest : List Char) : Except LexemeError Lexeme :=
  let size := runSize isNameChar rest
  let text := String.ofList (c :: rest.take size)
  if text == "true" then .ok ⟨.litTrue, size⟩
  else if text == "false" then .ok ⟨.litFalse, size⟩
  else if selectorStarts previous (c :: rest) then selector c rest
  else if colonFollows (rest.drop size) then .ok ⟨.property, size⟩
  else if Color.isName text then .ok ⟨.color, size⟩
  else .ok ⟨.string, size⟩

/-- The kind of a character that is a token whatever stands around it. -/
def punctuation? (c : Char) : Option Kind :=
  if c == '{' then some .leftBrace
  else if c == '}' then some .rightBrace
  else if c == '(' then some .leftParen
  else if c == ')' then some .rightParen
  else if c == ';' then some .semicolon
  else if c == ',' then some .comma
  else if c == '+' then some .plus
  else if c == '/' then some .slash
  else if c == '<' then some .less
  else if c == '&' then some .parentReference
  else none

/-- Whether the part of a selector that starts with a colon goes on like this. -/
def startsState : List Char → Bool
  | ':' :: c :: _ => isNameStart c
  | c :: _ => isNameStart c || c == '!'
  | [] => false

/-- The token that starts with the character `c` before `rest`.  `previous` is the kind of the
token before it, and `attached` tells that nothing stands between the two. -/
def lexeme (table : Keyword.Table) (previous : Option Kind) (attached : Bool) (c : Char)
    (rest : List Char) : Except LexemeError Lexeme :=
  let afterSelector := previous.any Kind.isSimpleSelector
  match punctuation? c with
  | some kind => .ok ⟨kind, 0⟩
  | none =>
    if c == '-' then .ok (minus previous rest)
    else if c == '=' && rest.head? == some '=' then .ok ⟨.equal, 1⟩
    else if c == '!' && rest.head? == some '=' then .ok ⟨.notEqual, 1⟩
    else if c == '@' || c == '!' then keyword table c rest
    else if c == '>' then .ok ⟨if afterSelector then .childCombinator else .greater, 0⟩
    else if c == ':' then
      if afterSelector && attached && startsState rest then selector c rest
      else .ok ⟨.colon, 0⟩
    else if c == '*' then
      if selectorStarts previous (c :: rest) then selector c rest else .ok ⟨.star, 0⟩
    else if c == '$' then variableLexeme rest
    else if c == '"' || c == '\'' then quotedString c rest
    else if c.isDigit then .ok (number rest)
    else if c == '#' then hash previous rest
    else if (c == '.' || c == '%') && headIs isNameStart rest then selector c rest
    else if isNameStart c then word previous c rest
    else .error (.unknown 0)

end StyleSheet.Token

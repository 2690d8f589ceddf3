import StyleSheet.Diagnostic
import StyleSheet.Text.Bytes
import StyleSheet.Token.Lexeme

/-!
# The scanner

A scanner stands in a text and yields one token after the other.  Trivia is skipped, except
that trivia between two selectors of a header is a token itself, the descendant combinator.
The last token is the end of the input, and after it the scanner yields it for ever.

Each token but the last has at least one character (`next_rest_lt`), so that scanning a text
ends.
-/

namespace StyleSheet

namespace Token

namespace Enclosure

def name : Enclosure → String
  | quotes => "string"
  | brackets => "attribute selector"

end Enclosure

/-- Why a text cannot be scanned. -/
inductive ScanError where
  /-- The text is not the start of any token. -/
  | unknown (text : String) (span : Span)
  /-- A string or an attribute is open at the end of the input. -/
  | unterminated (what : Enclosure) (span : Span)
  deriving DecidableEq

namespace ScanError

def span : ScanError → Span
  | unknown _ span => span
  | unterminated _ span => span

def code : ScanError → Diagnostic.Code
  | unknown .. => .unknownToken
  | unterminated .. => .unterminated

def message : ScanError → String
  | unknown text _ => "unknown token `" ++ text ++ "`"
  | unterminated what _ => "unterminated " ++ what.name

def label : ScanError → String
  | unknown .. => "not valid here"
  | unterminated .. => "starts here"

def diagnostic (e : ScanError) : Diagnostic := .single e.code e.message e.span e.label

end ScanError

/-- A place in a text: the bytes before it, the kind of the last token, and the characters
that are left. -/
structure Scanner where
  offset : Nat
  previous : Option Kind
  rest : List Char

namespace Scanner

def ofText (source : String) : Scanner := ⟨0, none, source.toList⟩

/-- Whether only trivia is left. -/
def isAtEnd (s : Scanner) : Bool := (s.rest.drop (triviaSize none s.rest)).isEmpty

/-- The next token: its kind, the number of characters before it, and its own number of
characters. -/
structure Cut where
  kind : Kind
  gap : Nat
  size : Nat

/-- Takes the token of a cut from the text. -/
def take (s : Scanner) (cut : Cut) : Token × Scanner :=
  let start := s.offset + Text.byteLength (s.rest.take cut.gap)
  let text := (s.rest.drop cut.gap).take cut.size
  let stop := start + Text.byteLength text
  (⟨cut.kind, String.ofList text, .ofRange start stop⟩,
    ⟨stop, some cut.kind, s.rest.drop (cut.gap + cut.size)⟩)

/-- Whether the trivia that a scanner stands at joins two selectors of a header. -/
def joinsSelectors (s : Scanner) (trivia : Nat) : Bool :=
  s.previous.any Kind.isSimpleSelector && 0 < trivia &&
    headIs startsSelector (s.rest.drop trivia) &&
    headerAhead (.plain 0) (s.rest.drop trivia)

/-- An error at a lexeme, with its place in the text. -/
def locate (s : Scanner) (trivia : Nat) : LexemeError → ScanError
  | .unknown more =>
    let start := s.offset + Text.byteLength (s.rest.take trivia)
    let text := (s.rest.drop trivia).take (more + 1)
    .unknown (String.ofList text) (.ofRange start (start + Text.byteLength text))
  | .unterminated what before =>
    .unterminated what (.ofRange (s.offset + Text.byteLength (s.rest.take (trivia + before)))
      (s.offset + Text.byteLength s.rest))

/-- Finds the next token. -/
def cut (table : Keyword.Table) (s : Scanner) : Except ScanError Cut :=
  let trivia := triviaSize none s.rest
  if s.joinsSelectors trivia then .ok ⟨.descendantCombinator, 0, trivia⟩
  else
    match s.rest.drop trivia with
    | [] => .ok ⟨.eof, trivia, 0⟩
    | c :: rest =>
      match lexeme table s.previous (trivia == 0) c rest with
      | .ok l => .ok ⟨l.kind, trivia, l.more + 1⟩
      | .error e => .error (s.locate trivia e)

/-- The next token and the scanner behind it. -/
def next (table : Keyword.Table) (s : Scanner) : Except ScanError (Token × Scanner) :=
  (s.cut table).map s.take

/-- A token before the end of the input takes characters from the text. -/
theorem cut_size_pos {table : Keyword.Table} {s : Scanner} {c : Cut}
    (h : s.cut table = .ok c) (hk : c.kind ≠ .eof) :
    c.gap + c.size ≠ 0 ∧ s.rest ≠ [] := by
  unfold cut at h
  simp only at h
  split at h
  · rename_i hj
    cases h
    have hpos : 0 < triviaSize none s.rest := by
      simp only [joinsSelectors, Bool.and_eq_true, decide_eq_true_eq] at hj
      exact hj.1.1.2
    refine ⟨by simp only; omega, fun hnil => ?_⟩
    simp [hnil, triviaSize] at hpos
  · split at h
    · cases h
      exact absurd rfl hk
    · rename_i hrest
      split at h
      · cases h
        refine ⟨by simp, fun hnil => ?_⟩
        simp [hnil] at hrest
      · cases h

/-- Every token but the end of the input uses up characters. -/
theorem next_rest_lt {table : Keyword.Table} {s s' : Scanner} {t : Token}
    (h : s.next table = .ok (t, s')) (hk : t.kind ≠ .eof) : s'.rest.length < s.rest.length := by
  unfold next at h
  cases hc : s.cut table with
  | error e => simp [hc, Except.map] at h
  | ok c =>
    simp only [hc, Except.map, Except.ok.injEq] at h
    have ht : (s.take c).1.kind = t.kind := by rw [h]
    have hs : (s.take c).2.rest = s'.rest := by rw [h]
    have hpos := cut_size_pos hc (by rw [← ht] at hk; exact hk)
    have hlen : 0 < s.rest.length := List.length_pos_iff.2 hpos.2
    rw [← hs]
    simp only [take, List.length_drop]
    omega

/-- No character is given back. -/
theorem next_rest_le {table : Keyword.Table} {s s' : Scanner} {t : Token}
    (h : s.next table = .ok (t, s')) : s'.rest.length ≤ s.rest.length := by
  unfold next at h
  cases hc : s.cut table with
  | error e => simp [hc, Except.map] at h
  | ok c =>
    simp only [hc, Except.map, Except.ok.injEq] at h
    have hs : (s.take c).2 = s' := by rw [h]
    rw [← hs]
    simp only [take, List.length_drop]
    omega

end Scanner

/-- The tokens of a text before the end of the input, and then either the span of that end or
the error that scanning met. -/
structure Tokenization where
  tokens : List Token
  ending : Except ScanError Span

namespace Tokenization

/-- A token before all others. -/
def cons (t : Token) (ts : Tokenization) : Tokenization := ⟨t :: ts.tokens, ts.ending⟩

/-- All tokens with the one for the end of the input, unless scanning fails. -/
def all (ts : Tokenization) : Except ScanError (List Token) :=
  ts.ending.map (fun span => ts.tokens ++ [.endOfInput span])

end Tokenization

/-- All that a scanner yields. -/
def Scanner.run (table : Keyword.Table) (s : Scanner) : Tokenization :=
  match h : s.next table with
  | .error e => ⟨[], .error e⟩
  | .ok (t, s') =>
    if hk : t.kind = .eof then ⟨[], .ok t.span⟩
    else
      have : s'.rest.length < s.rest.length := Scanner.next_rest_lt h hk
      (s'.run table).cons t
termination_by s.rest.length

/-- What a scanner yields is its next token before what the scanner behind it yields. -/
theorem Scanner.run_eq (table : Keyword.Table) (s : Scanner) :
    s.run table =
      match s.next table with
      | .error e => ⟨[], .error e⟩
      | .ok (t, s') => if t.kind = .eof then ⟨[], .ok t.span⟩ else (s'.run table).cons t := by
  rw [Scanner.run]
  split <;> simp only [*, dite_eq_ite]

/-- The tokens of a source text. -/
def tokenize (table : Keyword.Table) (source : String) : Tokenization :=
  (Scanner.ofText source).run table

end Token

end StyleSheet

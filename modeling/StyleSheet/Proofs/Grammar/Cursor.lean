import StyleSheet.Sheet.Read

/-!
# Windows on tokens that are scanned already

A cursor is a window on a finished tokenization.  Reading from a cursor looks at no text, so what
reading does is studied on cursors, and carried over to texts that are scanned while they are read
(`StyleSheet.Proofs.Grammar.Simulation`).
-/

namespace StyleSheet.Sheet

/-- A window on a tokenization: the span of the token read last, two tokens, and those that
follow up to the end. -/
structure Cursor where
  before : Span
  current : Token
  ahead : Token
  later : List Token
  ending : Except Token.ScanError Span

namespace Cursor

/-- The window on the first two tokens. -/
def ofTokens (ts : Token.Tokenization) : Except Token.ScanError Cursor :=
  match ts.tokens, ts.ending with
  | a :: b :: later, ending => .ok ⟨⟨0, 0⟩, a, b, later, ending⟩
  | [a], .ok span => .ok ⟨⟨0, 0⟩, a, .endOfInput span, [], .ok span⟩
  | [], .ok span => .ok ⟨⟨0, 0⟩, .endOfInput span, .endOfInput span, [], .ok span⟩
  | _, .error e => .error e

/-- The number of tokens before the end of the input. -/
def size (s : Cursor) : Nat :=
  (if s.current.kind = .eof then 0 else 1) + (if s.ahead.kind = .eof then 0 else 1) +
    s.later.length

/-- The window one token further on. -/
def advance (s : Cursor) : Except Token.ScanError Cursor :=
  match s.later, s.ending with
  | t :: later, _ => .ok ⟨s.current.span, s.ahead, t, later, s.ending⟩
  | [], .ok span => .ok ⟨s.current.span, s.ahead, .endOfInput span, [], s.ending⟩
  | [], .error e => .error e

instance : Window Cursor where
  before := before
  current := current
  ahead := ahead
  advance := advance
  size := size
  before_of_advance := by
    rintro ⟨before, current, ahead, _ | ⟨next, later⟩, e | span⟩ t h <;> cases h <;> rfl
  current_of_advance := by
    rintro ⟨before, current, ahead, _ | ⟨next, later⟩, e | span⟩ t h <;> cases h <;> rfl
  size_lt_of_advance := by
    rintro ⟨before, current, ahead, later, ending⟩ t hne h
    rcases later with _ | ⟨next, later⟩
    · rcases ending with e | span
      · cases h
      · cases h
        simp only [size, hne, Token.endOfInput, if_true, if_false]
        omega
    · cases h
      simp only [size, hne, if_false, List.length_cons]
      split <;> split <;> omega

end Cursor

/-- The sheet that tokens make up. -/
def ofTokens (ts : Token.Tokenization) : Except ReadError Sheet :=
  match Cursor.ofTokens ts with
  | .ok c => ofWindow c
  | .error e => .error (.scan e)

end StyleSheet.Sheet

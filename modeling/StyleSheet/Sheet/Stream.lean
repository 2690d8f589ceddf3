import StyleSheet.Sheet.Reading

/-!
# Reading while scanning

A stream is a window on a text that is scanned as far as reading asks for its tokens.
-/

namespace StyleSheet.Sheet

/-- A window on a text: the span of the token read last, two tokens, and the scanner behind them. -/
structure Stream where
  table : Keyword.Table
  before : Span
  current : Token
  ahead : Token
  scanner : Token.Scanner

namespace Stream

/-- The window on the first two tokens of a text. -/
def ofText (table : Keyword.Table) (source : String) : Except Token.ScanError Stream := do
  let (current, scanner) ← (Token.Scanner.ofText source).next table
  let (ahead, scanner) ← scanner.next table
  return ⟨table, ⟨0, 0⟩, current, ahead, scanner⟩

/-- The window one token further on, with the next token of the scanner. -/
def advance (s : Stream) : Except Token.ScanError Stream := do
  let (next, scanner) ← s.scanner.next s.table
  return ⟨s.table, s.current.span, s.ahead, next, scanner⟩

/-- The characters that are left to scan, and the tokens in the window before the end of the
input. -/
def size (s : Stream) : Nat :=
  (if s.current.kind = .eof then 0 else 1) + (if s.ahead.kind = .eof then 0 else 1) +
    s.scanner.rest.length

/-- A step pulls one token from the scanner and moves the window by one. -/
theorem exists_next_of_advance {s t : Stream} (h : s.advance = .ok t) :
    ∃ next scanner, s.scanner.next s.table = .ok (next, scanner) ∧
      t = ⟨s.table, s.current.span, s.ahead, next, scanner⟩ := by
  unfold advance at h
  cases hnext : s.scanner.next s.table with
  | error e =>
    rw [hnext] at h
    cases h
  | ok r =>
    obtain ⟨next, scanner⟩ := r
    rw [hnext] at h
    cases h
    exact ⟨next, scanner, rfl, rfl⟩

instance : Window Stream where
  before := before
  current := current
  ahead := ahead
  advance := advance
  size := size
  before_of_advance := by
    intro s t h
    obtain ⟨next, scanner, -, rfl⟩ := exists_next_of_advance h
    rfl
  current_of_advance := by
    intro s t h
    obtain ⟨next, scanner, -, rfl⟩ := exists_next_of_advance h
    rfl
  size_lt_of_advance := by
    intro s t hne h
    obtain ⟨next, scanner, hnext, rfl⟩ := exists_next_of_advance h
    simp only [size, hne, if_false]
    by_cases hk : next.kind = .eof
    · have hle := Token.Scanner.next_rest_le hnext
      simp only [hk, if_true]
      omega
    · have hlt := Token.Scanner.next_rest_lt hnext hk
      simp only [hk, if_false]
      omega

end Stream

end StyleSheet.Sheet

import StyleSheet.Sheet.Walk.Survey

/-!
# Progress of readings

Every reading of the grammar goes forward: an expression and a statement take at least one
token, and no reading gives tokens back.  Hence the number of tokens that are left bounds how
deep a reading can go, and a reading that may go that deep is not starved
(`statementsUpTo_ne_starved`).
-/

namespace StyleSheet.Sheet

variable {σ : Type} [Window σ]

/-- A window of which nothing is said. -/
def Survey.blind (σ : Type) [Window σ] : Survey σ Unit where
  Tok _ _ := True
  next _ _ := ()
  Last _ _ := True
  At _ _ := True
  Fail _ _ := True
  current _ := trivial
  last _ := trivial
  advance _ _ _ _ := trivial
  scan _ _ _ := trivial
  unexpected _ _ := trivial
  expectedExpression _ := trivial
  invalid _ _ _ := trivial
  unclosed _ _ _ := trivial

/-- With more levels than there are tokens left, statements are read to the end. -/
theorem statementsUpTo_ne_starved {n : Nat} {s : σ} (h : Window.size s < n) :
    statementsUpTo n none s ≠ .starved := by
  intro hstarved
  have hends := (Survey.blind σ).ends_statementsUpTo (.blind _) (i := ()) (c := s) n trivial
  rw [hstarved] at hends
  cases hends with
  | starved hle => exact Nat.not_le.mpr h hle

end StyleSheet.Sheet

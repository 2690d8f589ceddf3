import StyleSheet.Sheet.Progress
import StyleSheet.Sheet.Stream

/-!
# Reading a sheet

A source text is scanned and read as a sheet, or the first error is given.
-/

namespace StyleSheet.Sheet

variable {σ : Type} [Window σ]

/-- The statements from a window on up to the end of the input. -/
def ofWindow (s : σ) : Except ReadError Sheet :=
  match h : statementsUpTo (Window.size s + 1) none s with
  | .ok sheet _ => .ok sheet
  | .failed e _ => .error e
  | .starved => absurd h (statementsUpTo_ne_starved (Nat.lt_succ_self _))

/-- The sheet that a source text makes up. -/
def ofText (table : Keyword.Table) (source : String) : Except ReadError Sheet :=
  match Stream.ofText table source with
  | .ok s => ofWindow s
  | .error e => .error (.scan e)

/-- Reading a sheet succeeds when its statements can be read. -/
theorem ofWindow_eq_ok {s : σ} {sheet : Sheet} :
    ofWindow s = .ok sheet ↔ ∃ t, statementsUpTo (Window.size s + 1) none s = .ok sheet t := by
  unfold ofWindow
  split <;> rename_i h
  · simp [h]
  · simp [h]
  · exact absurd h (statementsUpTo_ne_starved (Nat.lt_succ_self _))

/-- Reading a sheet fails as reading its statements does. -/
theorem ofWindow_eq_error {s : σ} {e : ReadError} :
    ofWindow s = .error e ↔ ∃ t, statementsUpTo (Window.size s + 1) none s = .failed e t := by
  unfold ofWindow
  split <;> rename_i h
  · simp [h]
  · simp [h]
  · exact absurd h (statementsUpTo_ne_starved (Nat.lt_succ_self _))

end StyleSheet.Sheet

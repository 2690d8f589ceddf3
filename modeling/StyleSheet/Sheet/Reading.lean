import StyleSheet.Sheet
import StyleSheet.Sheet.ReadError

/-!
# Readings

A window shows two tokens of an input.  A reading takes a window and gives what it read, or an
error, with the window where it ended.

The token that enters the window is fetched before the current one counts as read, so an error
of the scanner shows as soon as the window reaches it, and not before.
-/

namespace StyleSheet.Sheet

/-- A window on an input: the span of the token read last, two tokens, and the window one token
further on, where the token ahead has become the current one.  The tokens that are left are counted
by a bound, which falls as tokens are read. -/
class Window (σ : Type) where
  before : σ → Span
  current : σ → Token
  ahead : σ → Token
  advance : σ → Except Token.ScanError σ
  size : σ → Nat
  before_of_advance : ∀ {s t : σ}, advance s = .ok t → before t = (current s).span
  current_of_advance : ∀ {s t : σ}, advance s = .ok t → current t = ahead s
  size_lt_of_advance : ∀ {s t : σ}, (current s).kind ≠ .eof → advance s = .ok t → size t < size s

/-- Whether the input is over. -/
def Window.isAtEnd {σ : Type} [Window σ] (s : σ) : Bool := (Window.current s).kind = .eof

/-- The window is at the end exactly if it shows the end of the input. -/
theorem Window.isAtEnd_iff {σ : Type} [Window σ] {s : σ} :
    Window.isAtEnd s = true ↔ (Window.current s).kind = .eof :=
  decide_eq_true_iff

/-- The outcome of a reading.  A reading that may go deeper only a given number of times is
`starved` when it has to go deeper than that. -/
inductive Reply (σ α : Type) where
  | ok (value : α) (rest : σ)
  | failed (error : ReadError) (rest : σ)
  | starved

/-- Goes on after a success. -/
def Reply.bind {σ α β : Type} (r : Reply σ α) (f : α → σ → Reply σ β) : Reply σ β :=
  match r with
  | .ok a s => f a s
  | .failed e s => .failed e s
  | .starved => .starved

/-- Reads something from a window. -/
def Reading (σ α : Type) : Type := σ → Reply σ α

namespace Reading

variable {σ α : Type}

instance : Monad (Reading σ) where
  pure a := fun s => .ok a s
  bind x f := fun s => (x s).bind f

def fail (e : ReadError) : Reading σ α := fun s => .failed e s

def starve : Reading σ α := fun _ => .starved

/-- The window itself. -/
def window : Reading σ σ := fun s => .ok s s

variable [Window σ]

/-- The current token. -/
def current : Reading σ Token := fun s => .ok (Window.current s) s

/-- Whether the current token is of a kind. -/
def check (kind : Token.Kind) : Reading σ Bool := fun s => .ok ((Window.current s).kind = kind) s

/-- The span of the token read last. -/
def lastSpan : Reading σ Span := fun s => .ok (Window.before s) s

/-- Reads the current token. -/
def advance : Reading σ Token := fun s =>
  match Window.advance s with
  | .ok next => .ok (Window.current s) next
  | .error e => .failed (.scan e) s

/-- Fails because the current token should have been another. -/
def unexpected (wanted : Wanted) : Reading σ α := fun s =>
  .failed (.unexpected wanted (Window.current s).kind (Window.current s).span) s

/-- Reads the current token if it is of a kind, and tells whether it was. -/
def eat (kind : Token.Kind) : Reading σ Bool := do
  if ← check kind then
    let _ ← advance
    return true
  else return false

/-- Reads a token of a kind. -/
def expect (kind : Token.Kind) : Reading σ Token := do
  if ← check kind then advance else unexpected (.token kind)

/-- Reads the token that closes what was opened at a span.  At the end of the input the opener
is to blame. -/
def expectClose (delimiter : Delimiter) (opened : Span) : Reading σ Token := do
  if Window.isAtEnd (← window) then fail (.unclosed delimiter opened)
  else expect delimiter.closer

/-- Repeats a reading until it yields nothing, at most so many times. -/
def repeatUpTo (step : Reading σ (Option α)) : Nat → Reading σ (List α)
  | 0 => starve
  | n + 1 => do
    match ← step with
    | none => return []
    | some a => return a :: (← repeatUpTo step n)

/-- Repeats a reading until it yields nothing.  A reading that yields something takes a token,
so the tokens that are left bound the repetitions. -/
def many (step : Reading σ (Option α)) : Reading σ (List α) := fun s =>
  repeatUpTo step (Window.size s + 1) s

end Reading

end StyleSheet.Sheet

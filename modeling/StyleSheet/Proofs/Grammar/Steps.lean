import Mathlib.Data.List.Induction
import StyleSheet.Sheet.Progress

/-!
# Steps of a window

A reading moves a window on, token by token.  What it does to the window is described by the tokens
that it takes (`Window.Takes`): none of them is the end of the input, and an error of the scanner
comes from a step at a token that is not the end either (`steps`).  This holds whatever the window
shows, for every reading of the grammar.
-/

namespace StyleSheet.Sheet

variable {σ : Type} [Window σ]

namespace Window

/-- Reading the tokens one after another leads from one window to another. -/
def Yields (s : σ) : List Token → σ → Prop
  | [], rest => s = rest
  | t :: ts, rest => current s = t ∧ ∃ next : σ, advance s = .ok next ∧ Yields next ts rest

variable {s t u rest : σ} {a : Token} {ts us used : List Token}

/-- Tokens that are read one by one can be read in two parts. -/
lemma Yields.append (h : Yields s (ts ++ us) rest) :
    ∃ mid, Yields s ts mid ∧ Yields mid us rest := by
  induction ts generalizing s with
  | nil => exact ⟨s, rfl, h⟩
  | cons t ts ih =>
    obtain ⟨hcurrent, next, hnext, hts⟩ := h
    obtain ⟨mid, hmid, hus⟩ := ih hts
    exact ⟨mid, ⟨hcurrent, next, hnext, hmid⟩, hus⟩

/-- Tokens that are read behind others are read with them. -/
lemma Yields.trans (h : Yields s ts t) (k : Yields t us u) : Yields s (ts ++ us) u := by
  induction ts generalizing s with
  | nil =>
    obtain rfl : s = t := h
    exact k
  | cons a ts ih =>
    obtain ⟨hcurrent, next, hnext, hts⟩ := h
    exact ⟨hcurrent, next, hnext, ih hts⟩

/-- The first of the tokens is read by a single step. -/
lemma Yields.exists_advance (h : Yields s (a :: ts) rest) :
    ∃ next, Reading.advance s = .ok a next ∧ Yields next ts rest := by
  obtain ⟨rfl, next, hnext, hts⟩ := h
  refine ⟨next, ?_, hts⟩
  rw [Reading.advance, hnext]

/-- Each token before the end of the input counts for the size of a window. -/
lemma Yields.length_le_size (h : Yields s ts rest) (hts : ∀ t ∈ ts, t.kind ≠ .eof) :
    ts.length ≤ size s := by
  induction ts generalizing s with
  | nil => exact Nat.zero_le _
  | cons t ts ih =>
    obtain ⟨ht, hothers⟩ := List.forall_mem_cons.mp hts
    obtain ⟨rfl, next, hnext, hyields⟩ := h
    exact Nat.lt_of_le_of_lt (ih hyields hothers) (size_lt_of_advance ht hnext)

/-- Reading the tokens one after another leads from one window to another, and none of them is the
end of the input. -/
structure Takes (s : σ) (used : List Token) (t : σ) : Prop where
  yields : Yields s used t
  ne_eof : ∀ a ∈ used, a.kind ≠ .eof

/-- No token leads nowhere. -/
lemma Takes.refl (s : σ) : Takes s [] s := ⟨rfl, fun _ ha => absurd ha List.not_mem_nil⟩

/-- One more token is taken before the end of the input. -/
lemma Takes.step (h : Takes s used t) (hk : (current t).kind ≠ .eof) (hnext : advance t = .ok u) :
    Takes s (used ++ [current t]) u where
  yields := h.yields.trans ⟨rfl, u, hnext, rfl⟩
  ne_eof := List.forall_mem_append.mpr ⟨h.ne_eof, List.forall_mem_singleton.mpr hk⟩

/-- Where fewer tokens are left, some have been taken. -/
lemma Takes.ne_nil (h : Takes s used t) (hsize : size t < size s) : used ≠ [] := by
  rintro rfl
  obtain rfl : s = t := h.yields
  exact Nat.lt_irrefl _ hsize

/-- What each step before the end of the input keeps is kept where tokens are taken. -/
lemma Takes.invariant (inv : List Token → σ → Prop) (hs : inv [] s)
    (hstep : ∀ {used t u}, inv used t → (current t).kind ≠ .eof → advance t = .ok u →
      inv (used ++ [current t]) u) (h : Takes s used t) : inv used t := by
  obtain ⟨hyields, hne⟩ := h
  induction used using List.reverseRecOn generalizing t with
  | nil =>
    obtain rfl : s = t := hyields
    exact hs
  | append_singleton used a ih =>
    obtain ⟨mid, hmid, hlast⟩ := hyields.append
    obtain ⟨rfl, next, hnext, hend⟩ := hlast
    obtain rfl : next = t := hend
    obtain ⟨hused, ha⟩ := List.forall_mem_append.mp hne
    exact hstep (ih hmid hused) (ha _ (List.mem_singleton_self _)) hnext

end Window

open Window (Takes)

/-- The windows that are reached from one window by steps before the end of the input.  The scanner
may fail at such a step. -/
def steps (s : σ) : Survey σ Unit where
  Tok _ _ := True
  next _ _ := ()
  Last _ _ := True
  At _ c := ∃ used, Takes s used c
  Fail _ e := ∀ e', e = .scan e' → ∃ used c, Takes s used c ∧ (Window.current c).kind ≠ .eof ∧
    Window.advance c = .error e'
  current _ := trivial
  last _ := trivial
  advance h hne _ hnext := by
    obtain ⟨used, hused⟩ := h
    exact ⟨_, hused.step hne hnext⟩
  scan := by
    rintro _ c e ⟨used, hused⟩ hne he _ ⟨⟩
    exact ⟨used, c, hused, hne, he⟩
  unexpected _ _ := nofun
  expectedExpression _ := nofun
  invalid _ _ _ := nofun
  unclosed _ _ _ := nofun

/-- Every window is reached from itself. -/
lemma at_steps (s : σ) : (steps s).At () s := ⟨[], .refl s⟩

section Replies

variable {α : Type} {s t : σ} {hungry : Prop} {m : Nat} {good : Unit → α → Prop} {r : Reply σ α}

/-- A reading that succeeds has taken tokens before the end of the input, and some if fewer are left
than before. -/
lemma takes_of_ends (h : r.Ends (steps s) hungry m () good) {a : α} (hr : r = .ok a t) :
    ∃ used, Takes s used t ∧ Window.size t < m := by
  cases h with
  | ok hat hsize _ _ =>
    cases hr
    obtain ⟨used, hused⟩ := hat
    exact ⟨used, hused, hsize⟩
  | failed | starved => cases hr

/-- A reading that fails has taken tokens before the end of the input too. -/
lemma takes_of_ends_failed (h : r.Ends (steps s) hungry m () good) {e : ReadError}
    (hr : r = .failed e t) : ∃ used, Takes s used t := by
  cases h with
  | failed hat _ =>
    cases hr
    exact hat
  | ok | starved => cases hr

/-- An error of the scanner comes from a step before the end of the input. -/
lemma advance_of_ends_scan (h : r.Ends (steps s) hungry m () good) {e : Token.ScanError}
    (hr : r = .failed (.scan e) t) : ∃ used c, Takes s used c ∧ (Window.current c).kind ≠ .eof ∧
      Window.advance c = .error e := by
  cases h with
  | failed _ hfail =>
    cases hr
    exact hfail e rfl
  | ok | starved => cases hr

end Replies

variable {s t : σ} {n : Nat}

/-- The statements between braces, as they are read inside of a statement. -/
abbrev blockUpTo (n : Nat) : Span → Reading σ (List Stmt) :=
  fun opened => statementsUpTo n (some opened)

/-- An expression is read by taking at least one token. -/
lemma takes_of_expressionUpTo {floor : Operator.Precedence} {e : Expr}
    (h : expressionUpTo n floor s = .ok e t) : ∃ used, used ≠ [] ∧ Takes s used t := by
  obtain ⟨used, hused, hsize⟩ :=
    takes_of_ends ((steps s).ends_expressionUpTo (.blind _) n floor (at_steps s)) h
  exact ⟨used, hused.ne_nil hsize, hused⟩

/-- Behind an expression less is left to read. -/
lemma size_lt_of_expression {e : Expr} (h : expression s = .ok e t) :
    Window.size t < Window.size s := by
  obtain ⟨_, -, hsize⟩ :=
    takes_of_ends ((steps s).ends_expressionUpTo (.blind _) _ .lowest (at_steps s)) h
  exact hsize

/-- A statement is read by taking at least one token. -/
lemma takes_of_statement {r : Option Stmt} (h : statement (blockUpTo n) s = .ok r t) :
    ∃ used, used ≠ [] ∧ Takes s used t := by
  obtain ⟨used, hused, hsize⟩ :=
    takes_of_ends ((steps s).ends_statement (.blind _) n (at_steps s)) h
  exact ⟨used, hused.ne_nil hsize, hused⟩

/-- All statements are read only when the input is over. -/
lemma isAtEnd_of_statementsUpTo {sheet : Sheet} (h : statementsUpTo n none s = .ok sheet t) :
    Window.isAtEnd t = true := by
  induction n generalizing s sheet with
  | zero => cases h
  | succ n ih =>
    obtain ⟨ended, u, hended, hrest⟩ := Reading.bind_ok h
    cases hended
    by_cases hs : Window.isAtEnd s = true
    · rw [if_pos hs] at hrest
      cases hrest
      exact hs
    · rw [if_neg hs] at hrest
      obtain ⟨first, u, -, hrest⟩ := Reading.bind_ok hrest
      obtain ⟨others, u', hothers, hpure⟩ := Reading.bind_ok hrest
      cases hpure
      exact ih hothers

end StyleSheet.Sheet

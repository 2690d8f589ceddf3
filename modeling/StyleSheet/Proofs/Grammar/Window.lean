import StyleSheet.Proofs.Grammar.Cursor
import StyleSheet.Proofs.Grammar.Forms

/-!
# Windows on a list of tokens

Where scanning succeeds, a window is given by the tokens that are left, and reading a token takes
the first of them.  The readings of the grammar are studied in these terms: what a reading does to
the list of tokens, and no longer what it does to the window.
-/

namespace StyleSheet.Sheet

open Form (Kinds)

/-- The window on the tokens that are left before the end of the input. -/
def Cursor.on (before stop : Span) : List Token → Cursor
  | a :: b :: later => ⟨before, a, b, later, .ok stop⟩
  | [a] => ⟨before, a, .endOfInput stop, [], .ok stop⟩
  | [] => ⟨before, .endOfInput stop, .endOfInput stop, [], .ok stop⟩

/-- The kinds of tokens. -/
def kinds (ts : List Token) : Kinds := ts.map Token.kind

/-- Tokens as scanning yields them: none stands for the end of the input, and numbers are
numbers. -/
def Readable (ts : List Token) : Prop :=
  ∀ t ∈ ts, t.kind ≠ .eof ∧ (t.kind = .number → (splitNumber? t.text).isSome = true)

/-- Readable tokens stay so when the first one is dropped. -/
lemma Readable.tail {t : Token} {ts : List Token} (h : Readable (t :: ts)) : Readable ts :=
  fun u hu => h u (List.mem_cons_of_mem t hu)

/-- The end of the input is not among readable tokens. -/
lemma Readable.head_ne_eof {t : Token} {ts : List Token} (h : Readable (t :: ts)) :
    t.kind ≠ .eof :=
  (h t List.mem_cons_self).1

/-- A number among readable tokens splits into a value and a unit. -/
lemma Readable.splits {t : Token} {ts : List Token} (h : Readable (t :: ts))
    (hk : t.kind = .number) : ∃ x unit, splitNumber? t.text = some (x, unit) := by
  have hsome := (h t List.mem_cons_self).2 hk
  obtain ⟨⟨x, unit⟩, hsplit⟩ := Option.isSome_iff_exists.mp hsome
  exact ⟨x, unit, hsplit⟩

@[simp] lemma kinds_nil : kinds [] = [] := rfl

@[simp] lemma kinds_cons (t : Token) (ts : List Token) : kinds (t :: ts) = t.kind :: kinds ts := rfl

@[simp] lemma length_kinds (ts : List Token) : (kinds ts).length = ts.length := List.length_map _

/-- Only no tokens have no kinds. -/
lemma kinds_eq_nil {ts : List Token} (h : kinds ts = []) : ts = [] := List.map_eq_nil_iff.mp h

/-- The first kind is that of the first token. -/
lemma kinds_eq_cons {ts : List Token} {k : Token.Kind} {ks : Kinds} (h : kinds ts = k :: ks) :
    ∃ t us, ts = t :: us ∧ t.kind = k ∧ kinds us = ks := by
  obtain ⟨t, us, rfl, hk, hks⟩ := List.map_eq_cons_iff.mp h
  exact ⟨t, us, rfl, hk, hks⟩

namespace Cursor

variable {before stop : Span} {t u : Token} {ts : List Token}

@[simp] lemma current_on_nil : Window.current (on before stop []) = .endOfInput stop := rfl

@[simp] lemma current_on_cons : Window.current (on before stop (t :: ts)) = t := by
  cases ts <;> rfl

@[simp] lemma ahead_on_cons : Window.ahead (on before stop (t :: u :: ts)) = u := rfl

@[simp] lemma ahead_on_singleton : Window.ahead (on before stop [t]) = .endOfInput stop := rfl

/-- A kind that the tokens do not start with is not that of the current token. -/
lemma current_kind_ne {k : Token.Kind} (hk : k ≠ .eof) (h : ∀ r, kinds ts ≠ k :: r) :
    (Window.current (on before stop ts)).kind ≠ k := by
  cases ts with
  | nil => exact hk.symm
  | cons t us =>
    rw [current_on_cons]
    intro htk
    exact h (kinds us) (by rw [kinds_cons, htk])

/-- The window is not at the end while a token is left. -/
lemma isAtEnd_on_cons (h : Readable (t :: ts)) :
    Window.isAtEnd (on before stop (t :: ts)) = false := by
  simp [Window.isAtEnd, h.head_ne_eof]

/-- The size of the window is the number of tokens that are left. -/
lemma size_on (h : Readable ts) : Window.size (on before stop ts) = ts.length := by
  change size _ = _
  rcases ts with _ | ⟨a, _ | ⟨b, later⟩⟩
  · rfl
  · simp [on, size, h.head_ne_eof, Token.endOfInput]
  · simp [on, size, h.head_ne_eof, h.tail.head_ne_eof]
    omega

/-- A step drops the first token. -/
lemma advance_on_cons : Window.advance (on before stop (t :: ts)) = .ok (on t.span stop ts) := by
  rcases ts with _ | ⟨a, _ | ⟨b, later⟩⟩ <;> rfl

end Cursor

open Cursor

namespace Reading

variable {α β : Type} {before stop : Span} {t : Token} {ts : List Token}

/-! ### Single steps -/

/-- Taking a token gives the first one. -/
@[simp] lemma advance_on : advance (on before stop (t :: ts)) = .ok t (on t.span stop ts) := by
  rw [advance, advance_on_cons, current_on_cons]

/-- The first token is passed on to what follows. -/
lemma bind_advance_on (f : Token → Reading Cursor β) :
    (advance >>= f) (on before stop (t :: ts)) = f t (on t.span stop ts) :=
  bind_of_ok advance_on

/-- A token that is checked for and read is the first one. -/
lemma eat_on_of_eq {kind : Token.Kind} (hk : t.kind = kind) :
    eat kind (on before stop (t :: ts)) = .ok true (on t.span stop ts) := by
  rw [eat_of_eq (by rw [current_on_cons]; exact hk), bind_advance_on]
  rfl

/-- A token of another kind is left where it is. -/
lemma eat_on_of_ne {kind : Token.Kind} (hk : t.kind ≠ kind) :
    eat kind (on before stop (t :: ts)) = .ok false (on before stop (t :: ts)) :=
  eat_of_ne (by rw [current_on_cons]; exact hk)

/-- An expected token is taken if it is the first one. -/
lemma expect_on_of_eq {kind : Token.Kind} (hk : t.kind = kind) :
    expect kind (on before stop (t :: ts)) = .ok t (on t.span stop ts) := by
  unfold expect
  rw [bind_check, current_on_cons, decide_eq_true hk]
  exact advance_on

/-- A closing bracket is taken if it is the first token. -/
lemma expectClose_on_of_eq {d : Delimiter} {opened : Span} (hr : Readable (t :: ts))
    (hk : t.kind = d.closer) :
    expectClose d opened (on before stop (t :: ts)) = .ok t (on t.span stop ts) := by
  unfold expectClose
  rw [bind_window, isAtEnd_on_cons hr]
  exact expect_on_of_eq hk

/-! ### Readings that succeed -/

/-- The reading succeeds on the tokens and leaves just the kinds `rest`. -/
def Accepts (x : Reading Cursor α) (ts : List Token) (rest : Kinds) : Prop :=
  ∀ before stop, Readable ts → ∃ a before' us, x (on before stop ts) = .ok a (on before' stop us) ∧
    Readable us ∧ kinds us = rest

/-- A reading that reads nothing succeeds and leaves all kinds. -/
lemma accepts_pure (a : α) (ts : List Token) : Accepts (pure a : Reading Cursor α) ts (kinds ts) :=
  fun before _ hr => ⟨a, before, ts, rfl, hr, rfl⟩

/-- A reading goes on after one that succeeds. -/
lemma Accepts.bind {x : Reading Cursor α} {f : α → Reading Cursor β} {mid rest : Kinds}
    (hx : Accepts x ts mid)
    (hf : ∀ a us, kinds us = mid → Accepts (f a) us rest) : Accepts (x >>= f) ts rest := by
  intro before stop hr
  obtain ⟨a, before', us, hxs, hus, hmid⟩ := hx before stop hr
  obtain ⟨b, before'', vs, hfs, hvs, hrest⟩ := hf a us hmid before' stop hus
  exact ⟨b, before'', vs, by rw [bind_of_ok hxs, hfs], hvs, hrest⟩

/-- What is made of the result does not matter. -/
lemma Accepts.bind_pure {x : Reading Cursor α} {f : α → β} {rest : Kinds} (hx : Accepts x ts rest) :
    Accepts (x >>= fun a => pure (f a)) ts rest :=
  hx.bind fun a us hus => by
    rw [← hus]
    exact accepts_pure (f a) us

/-- Readings that do the same where they start accept the same. -/
lemma Accepts.of_eq {x y : Reading Cursor α} {rest : Kinds} (hy : Accepts y ts rest)
    (h : ∀ before stop, Readable ts → x (on before stop ts) = y (on before stop ts)) :
    Accepts x ts rest := by
  intro before stop hr
  rw [h before stop hr]
  exact hy before stop hr

/-- A reading goes on behind any token that it takes. -/
lemma Accepts.advance_bind {f : Token → Reading Cursor β} {rest : Kinds}
    (hf : Accepts (f t) ts rest) :
    Accepts (advance >>= f) (t :: ts) rest := by
  intro before stop hr
  rw [bind_advance_on]
  exact hf t.span stop hr.tail

/-- A reading goes on behind a token that it expects. -/
lemma Accepts.expect_bind {kind : Token.Kind} {f : Token → Reading Cursor β} {rest : Kinds}
    (hk : t.kind = kind) (hf : Accepts (f t) ts rest) :
    Accepts (expect kind >>= f) (t :: ts) rest := by
  intro before stop hr
  rw [bind_of_ok (expect_on_of_eq hk)]
  exact hf t.span stop hr.tail

/-- A reading goes on behind the bracket that closes what it has opened. -/
lemma Accepts.expectClose_bind {d : Delimiter} {opened : Span} {f : Token → Reading Cursor β}
    {rest : Kinds} (hk : t.kind = d.closer) (hf : Accepts (f t) ts rest) :
    Accepts (expectClose d opened >>= f) (t :: ts) rest := by
  intro before stop hr
  rw [bind_of_ok (expectClose_on_of_eq hr hk)]
  exact hf t.span stop hr.tail

/-- A reading goes on whatever the span of the last token is. -/
lemma Accepts.lastSpan_bind {f : Span → Reading Cursor β} {rest : Kinds}
    (hf : ∀ span, Accepts (f span) ts rest) : Accepts (lastSpan >>= f) ts rest :=
  fun before stop hr => hf _ before stop hr

/-- A reading that is given as many levels as there are tokens. -/
lemma Accepts.sized (x : Nat → Reading Cursor α) {rest : Kinds}
    (h : Accepts (x (ts.length + 1)) ts rest) :
    Accepts (fun s => x (Window.size s + 1) s) ts rest := by
  intro before stop hr
  change ∃ a before' us, x ((Window.size (on before stop ts)) + 1) (on before stop ts) = _ ∧ _
  rw [size_on hr]
  exact h before stop hr

/-- What is read is passed on through a function. -/
lemma Accepts.map {x : Reading Cursor α} {rest : Kinds} (h : Accepts x ts rest) (f : α → β) :
    Accepts (f <$> x) ts rest :=
  show Accepts (x >>= fun a => pure (f a)) ts rest from h.bind_pure

end Reading

end StyleSheet.Sheet

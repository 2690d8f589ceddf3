import StyleSheet.Sheet.Walk.Grammar

/-!
# Surveys

A survey is a walk of a single window: what it shows at each place, and which errors it can meet
there.  What the walk over the grammar says about two windows is said here about one.
-/

namespace StyleSheet.Sheet

/-- The track of a single input. -/
def Track.single {ι : Type} (Tok : ι → Token → Prop) (next : ι → Token → ι)
    (Last : ι → Span → Prop) : Track ι where
  Tok i t t' := t = t' ∧ Tok i t
  next := next
  Last i span span' := span = span' ∧ Last i span

/-- What one window shows on its way. -/
structure Survey (σ ι : Type) [Window σ] where
  /-- The token that stands at the place. -/
  Tok : ι → Token → Prop
  /-- The place behind the token. -/
  next : ι → Token → ι
  /-- The span of the token before the place. -/
  Last : ι → Span → Prop
  /-- The window stands at the place. -/
  At : ι → σ → Prop
  /-- The error is possible at the place. -/
  Fail : ι → ReadError → Prop
  current : ∀ {i c}, At i c → Tok i (Window.current c)
  last : ∀ {i c}, At i c → Last i (Window.before c)
  advance : ∀ {i c c'}, At i c → (Window.current c).kind ≠ .eof →
    (∀ δ : Delimiter, (Window.current c).kind = δ.closer →
      ∃ base span, (Track.single Tok next Last).Opened δ base i span span) →
    Window.advance c = .ok c' → At (next i (Window.current c)) c'
  scan : ∀ {i c e}, At i c → (Window.current c).kind ≠ .eof → Window.advance c = .error e →
    Fail i (.scan e)
  unexpected : ∀ {i t wanted}, Tok i t → wanted ∈ Wanted.raised →
    Fail i (.unexpected wanted t.kind t.span)
  expectedExpression : ∀ {i t}, Tok i t → Fail i (.expectedExpression t.kind t.span)
  invalid : ∀ {i t}, Tok i t → t.kind = .number → splitNumber? t.text = none →
    Fail (next i t) (.unexpected (.token .number) .number t.span)
  unclosed : ∀ {δ base i span t}, (Track.single Tok next Last).Opened δ base i span span →
    Tok i t → t.kind = .eof → Fail i (.unclosed δ span)

namespace Survey

variable {σ ι α β : Type} [Window σ] (S : Survey σ ι)

/-- What is open on a single input has one span. -/
theorem eq_of_opened {Tok : ι → Token → Prop} {next : ι → Token → ι} {Last : ι → Span → Prop}
    {δ : Delimiter} {base i : ι} {span span' : Span}
    (h : (Track.single Tok next Last).Opened δ base i span span') : span = span' := by
  obtain ⟨ho, -, -⟩ := h
  exact congrArg Token.span ho.1

/-- What is open was opened by a token. -/
theorem exists_of_opened {Tok : ι → Token → Prop} {next : ι → Token → ι} {Last : ι → Span → Prop}
    {δ : Delimiter} {base i : ι} {span span' : Span}
    (h : (Track.single Tok next Last).Opened δ base i span span') :
    ∃ o, Tok base o ∧ o.kind = δ.opener ∧ o.span = span ∧
      (Track.single Tok next Last).Balanced (next base o) i := by
  obtain ⟨ho, hopen, inside⟩ := h
  exact ⟨_, ho.2, hopen, rfl, inside⟩

/-- The window beside itself. -/
def walk : Walk σ σ ι where
  toTrack := .single S.Tok S.next S.Last
  At i c d := c = d ∧ S.At i c
  Fail i e e' := e = e' ∧ S.Fail i e
  Stop _ := False
  kind_eq h := congrArg Token.kind h.1.symm
  text_eq h := congrArg Token.text h.1.symm
  current h := ⟨congrArg Window.current h.1, S.current h.2⟩
  ahead h := congrArg (fun s => (Window.ahead s).kind) h.1.symm
  last h := ⟨congrArg Window.before h.1, S.last h.2⟩
  size_le h := Nat.le_of_eq (congrArg Window.size h.1)
  advance := by
    rintro i c _ ⟨rfl, hat⟩ hne hclose
    refine .inr ?_
    cases h : Window.advance c with
    | error e => exact .inl ⟨e, e, rfl, rfl, rfl, S.scan hat hne h⟩
    | ok t =>
      refine .inr ⟨t, t, rfl, rfl, rfl, S.advance hat hne (fun δ hδ => ?_) h⟩
      obtain ⟨base, span, span', hopened⟩ := hclose δ hδ
      obtain rfl := eq_of_opened hopened
      exact ⟨base, _, hopened⟩
  unexpected := by
    rintro i t _ wanted ⟨rfl, ht⟩ hwanted
    exact ⟨rfl, S.unexpected ht hwanted⟩
  expectedExpression := by
    rintro i t _ ⟨rfl, ht⟩
    exact ⟨rfl, S.expectedExpression ht⟩
  invalid := by
    rintro i t _ ⟨rfl, ht⟩ hk hsplit
    exact ⟨rfl, S.invalid ht hk hsplit⟩
  unclosed := by
    rintro δ base i span span' t _ hopened ⟨rfl, ht⟩ hk
    obtain rfl := eq_of_opened hopened
    exact ⟨rfl, S.unclosed hopened ht hk⟩

end Survey

/-- What a single reading comes to: it succeeds at a place with something good, it fails with an
error that is possible at the place, or it is starved for want of levels. -/
inductive Reply.Ends {σ ι α : Type} [Window σ] (S : Survey σ ι) (hungry : Prop) (m : Nat) (i : ι)
    (good : ι → α → Prop) : Reply σ α → Prop
  | ok {j : ι} {a : α} {c : σ} (hat : S.At j c) (hsize : Window.size c < m)
    (heven : S.walk.Balanced i j) (hgood : good j a) : Ends S hungry m i good (.ok a c)
  | failed {j : ι} {e : ReadError} {c : σ} (hat : S.At j c) (hfail : S.Fail j e) :
    Ends S hungry m i good (.failed e c)
  | starved (hhungry : hungry) : Ends S hungry m i good .starved

/-- What agrees with itself along a survey comes to an end on it. -/
theorem Reply.Agrees.ends {σ ι α : Type} [Window σ] {S : Survey σ ι} {hungry : Prop} {m : Nat}
    {i : ι} {good : ι → α → α → Prop} {good' : ι → α → Prop} {r r' : Reply σ α}
    (h : r.Agrees S.walk hungry m i good r') (hgood : ∀ {j a b}, good j a b → good' j a) :
    r.Ends S hungry m i good' := by
  cases h with
  | ok hat hsize heven hg =>
    obtain ⟨-, hat⟩ := hat
    exact .ok hat hsize heven (hgood hg)
  | failed hat hfail =>
    obtain ⟨-, hat⟩ := hat
    obtain ⟨-, hfail⟩ := hfail
    exact .failed hat hfail
  | stopped hstop => exact False.elim hstop
  | starved h => exact .starved h

namespace Survey

variable {σ ι : Type} [Window σ] (S : Survey σ ι) (T : S.walk.Trees) {i : ι} {c : σ}

/-- An expression is read, with an error only where one is possible. -/
theorem ends_expressionUpTo (n : Nat) (floor : Operator.Precedence) (hat : S.At i c) :
    (expressionUpTo n floor c).Ends S (n ≤ Window.size c) (Window.size c) i
      (fun j e => ∃ e', T.Value i j e e') :=
  have hat' : S.walk.At i c c := ⟨rfl, hat⟩
  (agrees_expressionUpTo T (Nat.le_refl n) floor hat').ends fun h => ⟨_, h.1⟩

/-- Statements between braces agree with themselves. -/
theorem innersAgree_statementsUpTo (n : Nat) :
    InnersAgree T (n ≤ Window.size c) (Window.size c) (fun opened => statementsUpTo n (some opened))
      (fun opened => statementsUpTo n (some opened)) := by
  intro i c' d' o o' ho hopen hat hlt
  exact (agrees_bodyUpTo T (Nat.le_refl n) ho hopen hat .refl).mono
    (fun hle => Nat.le_trans hle (Nat.le_of_lt hlt)) (Nat.le_refl _) id

/-- A statement is read, with an error only where one is possible. -/
theorem ends_statement (n : Nat) (hat : S.At i c) :
    (statement (fun opened => statementsUpTo n (some opened)) c).Ends S (n ≤ Window.size c)
      (Window.size c) i (fun j r => ∃ r', S.walk.Item T.Statement i j r r') :=
  have hat' : S.walk.At i c c := ⟨rfl, hat⟩
  (agrees_statement (S.innersAgree_statementsUpTo T n) hat' (Nat.le_refl _)).ends fun h => ⟨_, h⟩

/-- Statements behind an opening brace are read, with an error only where one is possible. -/
theorem ends_bodyUpTo (n : Nat) {base : ι} {o : Token} (ho : S.Tok base o)
    (hopen : o.kind = .leftBrace) (hat : S.At i c) (heven : S.walk.Balanced (S.next base o) i) :
    (statementsUpTo n (some o.span) c).Ends S (n ≤ Window.size c) (Window.size c) base
      (fun j as => ∃ bs, S.walk.Body T.Statement i j as bs) :=
  have hat' : S.walk.At i c c := ⟨rfl, hat⟩
  have ho' : S.walk.Tok base o o := ⟨rfl, ho⟩
  (agrees_bodyUpTo T (Nat.le_refl n) ho' hopen hat' heven).ends fun h => ⟨_, h⟩

/-- All statements are read up to the end of the input, with an error only where one is possible. -/
theorem ends_statementsUpTo (n : Nat) (hat : S.At i c) :
    (statementsUpTo n none c).Ends S (n ≤ Window.size c) (Window.size c + 1) i
      (fun j as => (∃ bs, S.walk.Statements T.Statement i j as bs) ∧ ∃ t, S.Tok j t ∧
        t.kind = .eof) := by
  have hat' : S.walk.At i c c := ⟨rfl, hat⟩
  refine (agrees_statementsUpTo T (Nat.le_refl n) hat').ends fun h => ?_
  obtain ⟨hstatements, t, t', ⟨-, ht⟩, hk⟩ := h
  exact ⟨⟨_, hstatements⟩, t, ht, hk⟩

end Survey

end StyleSheet.Sheet

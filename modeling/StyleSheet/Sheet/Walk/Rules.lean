import StyleSheet.Sheet.Walk.Track

/-!
# Walks

Two windows walk along a track, each on its own input.  A reading from the first agrees with a
reading from the second (`Reply.Agrees`) if both succeed at one place of the track with trees that
belong together, or both fail there with errors that do.

Here are the rules for the parts that readings are put together from.  They hold for every walk, so
the grammar is walked over only once (`StyleSheet.Sheet.Walk.Grammar`), and each property of
readings is a walk of its own.
-/

namespace StyleSheet.Sheet

/-- All that reading asks for. -/
def Wanted.raised : List Wanted :=
  [.token .colon, .token .semicolon, .token .leftBrace, .token .rightBrace, .token .rightParen,
    .token .string, .token .variableName, .mixinName, .selector]

/-- Two windows that walk along a track. -/
structure Walk (σ τ ι : Type) [Window σ] [Window τ] extends Track ι where
  /-- The windows stand at the place. -/
  At : ι → σ → τ → Prop
  /-- The errors belong together at the place. -/
  Fail : ι → ReadError → ReadError → Prop
  /-- With this error of the scanner the first window stops, whatever the second one does. -/
  Stop : Token.ScanError → Prop
  kind_eq : ∀ {i t t'}, Tok i t t' → t'.kind = t.kind
  text_eq : ∀ {i t t'}, Tok i t t' → t'.text = t.text
  current : ∀ {i c d}, At i c d → Tok i (Window.current c) (Window.current d)
  ahead : ∀ {i c d}, At i c d → (Window.ahead d).kind = (Window.ahead c).kind
  last : ∀ {i c d}, At i c d → Last i (Window.before c) (Window.before d)
  size_le : ∀ {i c d}, At i c d → Window.size c ≤ Window.size d
  /-- Before the end of the input the windows go on together.  A closing bracket is only read where
  its opener is the innermost that is open. -/
  advance : ∀ {i c d}, At i c d → (Window.current c).kind ≠ .eof →
    (∀ δ : Delimiter, (Window.current c).kind = δ.closer →
      ∃ base span span', toTrack.Opened δ base i span span') →
    (∃ e, Window.advance c = .error e ∧ Stop e) ∨
    (∃ e e', Window.advance c = .error e ∧ Window.advance d = .error e' ∧
      Fail i (.scan e) (.scan e')) ∨
    ∃ c' d', Window.advance c = .ok c' ∧ Window.advance d = .ok d' ∧
      At (next i (Window.current c)) c' d'
  unexpected : ∀ {i t t' wanted}, Tok i t t' → wanted ∈ Wanted.raised →
    Fail i (.unexpected wanted t.kind t.span) (.unexpected wanted t'.kind t'.span)
  expectedExpression : ∀ {i t t'}, Tok i t t' →
    Fail i (.expectedExpression t.kind t.span) (.expectedExpression t'.kind t'.span)
  /-- A number has no value. -/
  invalid : ∀ {i t t'}, Tok i t t' → t.kind = .number → splitNumber? t.text = none →
    Fail (next i t) (.unexpected (.token .number) .number t.span)
      (.unexpected (.token .number) .number t'.span)
  /-- The input is over and something is still open. -/
  unclosed : ∀ {δ base i span span' t t'}, toTrack.Opened δ base i span span' → Tok i t t' →
    t.kind = .eof → Fail i (.unclosed δ span) (.unclosed δ span')

namespace Track

variable {ι α β : Type} {k : Track ι}

/-- Where items are the same on both sides, so are lists of them. -/
theorem Many.eq {item : ι → ι → α → α → Prop} (hitem : ∀ {i j a b}, item i j a b → a = b) {i j : ι}
    {as bs : List α} (h : Many item i j as bs) : as = bs := by
  induction h with
  | nil => rfl
  | cons first _ ih => rw [hitem first, ih]

/-- Both sides have read equally many items, so either both lists are empty or neither is. -/
theorem Many.isEmpty_eq {item : ι → ι → α → β → Prop} {i j : ι} {as : List α} {bs : List β}
    (h : Many item i j as bs) : bs.isEmpty = as.isEmpty := by
  cases h <;> rfl

/-- A semicolon or a statement in front of statements gives statements. -/
theorem Item.cons {stmt : ι → ι → Stmt → Stmt → Prop} {i j l : ι} {r r' : Option Stmt}
    {as bs : List Stmt} (first : k.Item stmt i j r r') (others : k.Statements stmt j l as bs) :
    k.Statements stmt i l (r.toList ++ as) (r'.toList ++ bs) := by
  cases first with
  | semicolon ht hkind => exact .semicolon ht hkind others
  | statement h => exact .cons h others

/-- A closing bracket ends what its opener has started. -/
theorem Opened.close {d : Delimiter} {base i : ι} {span span' : Span} {c c' : Token}
    (h : k.Opened d base i span span') (hc : k.Tok i c c') (hclose : c.kind = d.closer) :
    k.Balanced base (k.next i c) := by
  cases h with
  | mk ho hopen inside => exact .wrap ho hopen inside hc hclose

end Track

/-- The replies agree: both windows are at one place, fewer than `m` tokens are left, each bracket
since the place `i` is closed, and what is read is good there.  Or both readings fail, with errors
that belong together, or the first window stops.  The first reading may also be starved if it was
given too few levels. -/
inductive Reply.Agrees {σ τ ι α β : Type} [Window σ] [Window τ] (w : Walk σ τ ι) (hungry : Prop)
    (m : Nat) (i : ι) (good : ι → α → β → Prop) : Reply σ α → Reply τ β → Prop
  | ok {j : ι} {a : α} {b : β} {c : σ} {d : τ} (hat : w.At j c d) (hsize : Window.size c < m)
    (heven : w.Balanced i j) (hgood : good j a b) : Agrees w hungry m i good (.ok a c) (.ok b d)
  | failed {j : ι} {e e' : ReadError} {c : σ} {d : τ} (hat : w.At j c d) (hfail : w.Fail j e e') :
    Agrees w hungry m i good (.failed e c) (.failed e' d)
  | stopped {e : Token.ScanError} {c : σ} {r : Reply τ β} (hstop : w.Stop e) :
    Agrees w hungry m i good (.failed (.scan e) c) r
  | starved {r : Reply τ β} (hhungry : hungry) : Agrees w hungry m i good .starved r

namespace Reply.Agrees

variable {σ τ ι α β γ δ : Type} [Window σ] [Window τ] {w : Walk σ τ ι} {hungry hungry' : Prop}
  {m m' : Nat} {i j : ι} {good good' : ι → α → β → Prop} {r : Reply σ α} {r' : Reply τ β}

/-- Weaker claims follow from stronger ones. -/
theorem mono (h : r.Agrees w hungry m i good r') (hhungry : hungry → hungry') (hm : m ≤ m')
    (hgood : ∀ {j a b}, good j a b → good' j a b) : r.Agrees w hungry' m' i good' r' := by
  cases h with
  | ok hat hsize heven hg => exact .ok hat (Nat.lt_of_lt_of_le hsize hm) heven (hgood hg)
  | failed hat hfail => exact .failed hat hfail
  | stopped hstop => exact .stopped hstop
  | starved h => exact .starved (hhungry h)

/-- A reading may start behind another place. -/
theorem rebase (hij : w.Balanced i j) (h : r.Agrees w hungry m j good r') :
    r.Agrees w hungry m i good r' := by
  cases h with
  | ok hat hsize heven hg => exact .ok hat hsize (hij.trans heven) hg
  | failed hat hfail => exact .failed hat hfail
  | stopped hstop => exact .stopped hstop
  | starved h => exact .starved h

/-- The second reading starts where the first one ends. -/
theorem bind {x : Reading σ α} {y : Reading τ β} {f : α → Reading σ γ} {g : β → Reading τ δ} {c : σ}
    {d : τ} {good' : ι → γ → δ → Prop} (hx : (x c).Agrees w hungry m i good (y d))
    (hf : ∀ {l a b c' d'}, w.At l c' d' → Window.size c' < m → w.Balanced i l → good l a b →
      (f a c').Agrees w hungry m' j good' (g b d')) :
    ((x >>= f) c).Agrees w hungry m' j good' ((y >>= g) d) := by
  change ((x c).bind f).Agrees w hungry m' j good' ((y d).bind g)
  generalize x c = r at hx
  generalize y d = r' at hx
  cases hx with
  | ok hat hsize heven hg => exact hf hat hsize heven hg
  | failed hat hfail => exact .failed hat hfail
  | stopped hstop => exact .stopped hstop
  | starved h => exact .starved h

/-- The same, if each bracket is closed in the first reading. -/
theorem andThen {x : Reading σ α} {y : Reading τ β} {f : α → Reading σ γ} {g : β → Reading τ δ}
    {c : σ} {d : τ} {good' : ι → γ → δ → Prop} (hx : (x c).Agrees w hungry m i good (y d))
    (hf : ∀ {l a b c' d'}, w.At l c' d' → Window.size c' < m → good l a b →
      (f a c').Agrees w hungry m' l good' (g b d')) :
    ((x >>= f) c).Agrees w hungry m' i good' ((y >>= g) d) :=
  hx.bind fun hat hsize heven hg => (hf hat hsize hg).rebase heven

/-- What is read is passed on through functions. -/
theorem map {x : Reading σ α} {y : Reading τ β} {f : α → γ} {g : β → δ} {c : σ} {d : τ}
    {good' : ι → γ → δ → Prop} (hx : (x c).Agrees w hungry m i good (y d))
    (hf : ∀ {l a b}, good l a b → good' l (f a) (g b)) :
    ((f <$> x) c).Agrees w hungry m i good' ((g <$> y) d) :=
  hx.andThen fun hat hsize hg => .ok hat hsize .refl (hf hg)

end Reply.Agrees

namespace Reading

variable {σ τ ι α β γ δ : Type} [Window σ] [Window τ] {w : Walk σ τ ι} {hungry : Prop} {m : Nat}
  {i j base : ι} {good : ι → α → β → Prop} {c : σ} {d : τ}

/-! ### Readings that take no token -/

/-- Readings that read nothing agree if their results belong together. -/
theorem agrees_pure {a : α} {b : β} (hat : w.At i c d) (hm : Window.size c < m) (h : good i a b) :
    ((pure a : Reading σ α) c).Agrees w hungry m i good ((pure b : Reading τ β) d) :=
  .ok hat hm .refl h

omit [Window σ] in
/-- A reading that goes on hands its reply on. -/
theorem bind_apply (x : Reading σ α) (f : α → Reading σ β) (s : σ) :
    (x >>= f) s = (x s).bind f := rfl

omit [Window σ] in
/-- A reading that succeeds is a success followed by another. -/
theorem bind_ok {x : Reading σ α} {f : α → Reading σ β} {s u : σ} {b : β}
    (h : (x >>= f) s = .ok b u) : ∃ a t, x s = .ok a t ∧ f a t = .ok b u := by
  rw [bind_apply] at h
  cases hx : x s with
  | ok a t =>
    rw [hx] at h
    exact ⟨a, t, rfl, h⟩
  | failed e u =>
    rw [hx] at h
    cases h
  | starved =>
    rw [hx] at h
    cases h

omit [Window σ] in
/-- A success is followed by the other reading. -/
theorem bind_of_ok {x : Reading σ α} {f : α → Reading σ β} {s t : σ} {a : α} (h : x s = .ok a t) :
    (x >>= f) s = f a t := by
  rw [bind_apply, h]
  rfl

/-- What follows a check learns whether the current token is of the kind. -/
theorem bind_check (kind : Token.Kind) (f : Bool → Reading σ α) (s : σ) :
    (check kind >>= f) s = f (decide ((Window.current s).kind = kind)) s := rfl

/-- What follows is given the current token. -/
theorem bind_current (f : Token → Reading σ α) (s : σ) :
    (current >>= f) s = f (Window.current s) s := rfl

omit [Window σ] in
/-- What follows is given the window. -/
theorem bind_window (f : σ → Reading σ α) (s : σ) : (window >>= f) s = f s s := rfl

/-- What follows is given the span of the token before the window. -/
theorem agrees_lastSpan_bind {f : Span → Reading σ α} {g : Span → Reading τ β}
    (hf : (f (Window.before c) c).Agrees w hungry m base good (g (Window.before d) d)) :
    ((lastSpan >>= f) c).Agrees w hungry m base good ((lastSpan >>= g) d) := hf

/-- Both windows show tokens of one kind. -/
theorem kind_current (hat : w.At i c d) : (Window.current d).kind = (Window.current c).kind :=
  w.kind_eq (w.current hat)

/-- Both readings complain about the current token, and they wanted the same. -/
theorem agrees_unexpected (hat : w.At i c d) {wanted : Wanted} (h : wanted ∈ Wanted.raised) :
    ((unexpected wanted : Reading σ α) c).Agrees w hungry m base good
      ((unexpected wanted : Reading τ β) d) :=
  .failed hat (w.unexpected (w.current hat) h)

/-- The readings go on in one of two ways, as the current token tells. -/
theorem agrees_check_ite {kind : Token.Kind} {x y : Reading σ α} {x' y' : Reading τ β}
    (hat : w.At i c d)
    (hx : (Window.current c).kind = kind → (x c).Agrees w hungry m base good (x' d))
    (hy : (Window.current c).kind ≠ kind → (y c).Agrees w hungry m base good (y' d)) :
    ((check kind >>= fun b => if b then x else y) c).Agrees w hungry m base good
      ((check kind >>= fun b => if b then x' else y') d) := by
  change ((if decide ((Window.current c).kind = kind) then x else y) c).Agrees w hungry m base good
    ((if decide ((Window.current d).kind = kind) then x' else y') d)
  rw [kind_current hat]
  by_cases h : (Window.current c).kind = kind
  · simp only [h, decide_true, if_true]
    exact hx h
  · simp only [h, decide_false, Bool.false_eq_true, if_false]
    exact hy h

/-- The readings go on in one of two ways, depending on whether the input is over. -/
theorem agrees_isAtEnd_ite {x y : Reading σ α} {x' y' : Reading τ β} (hat : w.At i c d)
    (hx : (Window.current c).kind = .eof → (x c).Agrees w hungry m base good (x' d))
    (hy : (Window.current c).kind ≠ .eof → (y c).Agrees w hungry m base good (y' d)) :
    ((window >>= fun s => if Window.isAtEnd s then x else y) c).Agrees w hungry m base good
      ((window >>= fun s => if Window.isAtEnd s then x' else y') d) :=
  agrees_check_ite hat hx hy

/-! ### Readings of single tokens -/

/-- The current token is read. -/
theorem agrees_advance_bind {f : Token → Reading σ α} {g : Token → Reading τ β} (hat : w.At i c d)
    (hne : (Window.current c).kind ≠ .eof)
    (hclose : ∀ δ : Delimiter, (Window.current c).kind = δ.closer →
      ∃ base span span', w.Opened δ base i span span')
    (hf : ∀ {c' d'}, w.At (w.next i (Window.current c)) c' d' → Window.size c' < Window.size c →
      (f (Window.current c) c').Agrees w hungry m base good (g (Window.current d) d')) :
    ((advance >>= f) c).Agrees w hungry m base good ((advance >>= g) d) := by
  change ((advance c).bind f).Agrees w hungry m base good ((advance d).bind g)
  unfold advance
  rcases w.advance hat hne hclose with
    ⟨e, hc, hstop⟩ | ⟨e, e', hc, hd, hfail⟩ | ⟨c', d', hc, hd, hnext⟩
  · rw [hc]
    exact .stopped hstop
  · rw [hc, hd]
    exact .failed hat hfail
  · rw [hc, hd]
    exact hf hnext (Window.size_lt_of_advance hne hc)

/-- No token that opens or closes nothing has to be matched. -/
theorem ne_closer {kind : Token.Kind} (h : kind.isBracket = false) (δ : Delimiter) :
    kind ≠ δ.closer := by
  rintro rfl
  cases δ <;> cases h

/-- A token is read that opens and closes nothing. -/
theorem agrees_token_bind {f : Token → Reading σ α} {g : Token → Reading τ β} (hat : w.At i c d)
    (hne : (Window.current c).kind ≠ .eof) (hplain : (Window.current c).kind.isBracket = false)
    (hf : ∀ {c' d'}, w.At (w.next i (Window.current c)) c' d' → Window.size c' < Window.size c →
      (f (Window.current c) c').Agrees w hungry m (w.next i (Window.current c)) good
        (g (Window.current d) d')) :
    ((advance >>= f) c).Agrees w hungry m i good ((advance >>= g) d) :=
  agrees_advance_bind hat hne (fun δ h => absurd h (ne_closer hplain δ)) fun hnext hlt =>
    (hf hnext hlt).rebase (.plain (w.current hat) hplain)

/-- A token of the expected kind is taken. -/
theorem expect_of_eq {kind : Token.Kind} {s : σ} (h : (Window.current s).kind = kind) :
    expect kind s = advance s := by
  change (if decide ((Window.current s).kind = kind) then advance
    else unexpected (.token kind)) s = _
  rw [decide_eq_true h]
  rfl

/-- A token of another kind is complained about. -/
theorem expect_of_ne {kind : Token.Kind} {s : σ} (h : (Window.current s).kind ≠ kind) :
    expect kind s = unexpected (.token kind) s := by
  change (if decide ((Window.current s).kind = kind) then advance
    else unexpected (.token kind)) s = _
  rw [decide_eq_false h]
  rfl

/-- A token of a kind is wanted and read. -/
theorem agrees_expect_bind {kind : Token.Kind} {f : Token → Reading σ α} {g : Token → Reading τ β}
    (hat : w.At i c d) (hne : kind ≠ .eof) (hraised : .token kind ∈ Wanted.raised)
    (hclose : ∀ δ : Delimiter, kind = δ.closer → ∃ base span span', w.Opened δ base i span span')
    (hf : ∀ {c' d'}, (Window.current c).kind = kind → w.At (w.next i (Window.current c)) c' d' →
      Window.size c' < Window.size c →
        (f (Window.current c) c').Agrees w hungry m base good (g (Window.current d) d')) :
    ((expect kind >>= f) c).Agrees w hungry m base good ((expect kind >>= g) d) := by
  change ((expect kind c).bind f).Agrees w hungry m base good ((expect kind d).bind g)
  by_cases h : (Window.current c).kind = kind
  · rw [expect_of_eq h, expect_of_eq ((kind_current hat).trans h)]
    subst h
    exact agrees_advance_bind hat hne hclose fun hnext hlt => hf rfl hnext hlt
  · rw [expect_of_ne h, expect_of_ne (fun h' => h ((kind_current hat).symm.trans h'))]
    exact .failed hat (w.unexpected (w.current hat) hraised)

/-- A token that opens and closes nothing is wanted and read. -/
theorem agrees_expect_token_bind {kind : Token.Kind} {f : Token → Reading σ α}
    {g : Token → Reading τ β} (hat : w.At i c d) (hne : kind ≠ .eof)
    (hplain : kind.isBracket = false) (hraised : .token kind ∈ Wanted.raised)
    (hf : ∀ {c' d'}, (Window.current c).kind = kind → w.At (w.next i (Window.current c)) c' d' →
      Window.size c' < Window.size c →
        (f (Window.current c) c').Agrees w hungry m (w.next i (Window.current c)) good
          (g (Window.current d) d')) :
    ((expect kind >>= f) c).Agrees w hungry m i good ((expect kind >>= g) d) :=
  agrees_expect_bind hat hne hraised (fun δ h => absurd h (ne_closer hplain δ)) fun h hnext hlt =>
    (hf h hnext hlt).rebase (.plain (w.current hat) (by rw [h]; exact hplain))

/-- At the end of the input the opening bracket is to blame. -/
theorem expectClose_of_eof {δ : Delimiter} {opened : Span} {s : σ}
    (h : (Window.current s).kind = .eof) :
    expectClose δ opened s = .failed (.unclosed δ opened) s := by
  change (if Window.isAtEnd s then fail (.unclosed δ opened) else expect δ.closer) s = _
  rw [if_pos (Window.isAtEnd_iff.mpr h)]
  rfl

/-- Before the end of the input the closing bracket is expected like any other token. -/
theorem expectClose_of_ne {δ : Delimiter} {opened : Span} {s : σ}
    (h : (Window.current s).kind ≠ .eof) : expectClose δ opened s = expect δ.closer s := by
  change (if Window.isAtEnd s then fail (.unclosed δ opened) else expect δ.closer) s = _
  rw [if_neg fun heof => h (Window.isAtEnd_iff.mp heof)]

/-- The token is read that closes what was opened, or the input ends before. -/
theorem agrees_expectClose_bind {δ : Delimiter} {span span' : Span} {f : Token → Reading σ α}
    {g : Token → Reading τ β} (hat : w.At i c d) (hopened : w.Opened δ base i span span')
    (hf : ∀ {c' d'}, (Window.current c).kind = δ.closer →
      w.At (w.next i (Window.current c)) c' d' → Window.size c' < Window.size c →
        (f (Window.current c) c').Agrees w hungry m (w.next i (Window.current c)) good
          (g (Window.current d) d')) :
    ((expectClose δ span >>= f) c).Agrees w hungry m base good
      ((expectClose δ span' >>= g) d) := by
  have hwanted : Wanted.token δ.closer ∈ Wanted.raised := by cases δ <;> decide
  change ((expectClose δ span c).bind f).Agrees w hungry m base good
    ((expectClose δ span' d).bind g)
  by_cases heof : (Window.current c).kind = .eof
  · rw [expectClose_of_eof heof, expectClose_of_eof ((kind_current hat).trans heof)]
    exact .failed hat (w.unclosed hopened (w.current hat) heof)
  · rw [expectClose_of_ne heof, expectClose_of_ne fun h => heof ((kind_current hat).symm.trans h)]
    refine agrees_expect_bind hat (by cases δ <;> exact nofun) hwanted ?_ fun hk hnext hlt => ?_
    · intro δ' h
      obtain rfl : δ = δ' := by cases δ <;> cases δ' <;> first | rfl | cases h
      exact ⟨base, span, span', hopened⟩
    · exact (hf hk hnext hlt).rebase (hopened.close (w.current hat) hk)

/-- A token of the kind is taken. -/
theorem eat_of_eq {kind : Token.Kind} {s : σ} (h : (Window.current s).kind = kind) :
    eat kind s = (advance >>= fun _ => pure true : Reading σ Bool) s := by
  change (if decide ((Window.current s).kind = kind) then
    (advance >>= fun _ => pure true : Reading σ Bool) else pure false) s = _
  rw [decide_eq_true h]
  rfl

/-- A token of another kind is left where it is. -/
theorem eat_of_ne {kind : Token.Kind} {s : σ} (h : (Window.current s).kind ≠ kind) :
    eat kind s = .ok false s := by
  change (if decide ((Window.current s).kind = kind) then
    (advance >>= fun _ => pure true : Reading σ Bool) else pure false) s = _
  rw [decide_eq_false h]
  rfl

/-- After a token of the kind the reading goes on with the answer that it was there. -/
theorem eat_bind_of_eq {kind : Token.Kind} {f : Bool → Reading σ α} {s : σ}
    (h : (Window.current s).kind = kind) :
    (eat kind >>= f) s = (advance >>= fun _ => f true) s := by
  change (eat kind s).bind f = (advance s).bind fun _ => f true
  rw [eat_of_eq h]
  change ((advance s).bind _).bind f = _
  cases advance s <;> rfl

/-- At a token of another kind the reading goes on with the answer that it was not there. -/
theorem eat_bind_of_ne {kind : Token.Kind} {f : Bool → Reading σ α} {s : σ}
    (h : (Window.current s).kind ≠ kind) : (eat kind >>= f) s = f false s := by
  change (eat kind s).bind f = f false s
  rw [eat_of_ne h]
  rfl

/-- A token of a kind is read if it is there. -/
theorem agrees_eat_bind {kind : Token.Kind} {f : Bool → Reading σ α} {g : Bool → Reading τ β}
    (hat : w.At i c d) (hne : kind ≠ .eof)
    (hclose : ∀ δ : Delimiter, kind = δ.closer → ∃ base span span', w.Opened δ base i span span')
    (hpresent : ∀ {c' d'}, (Window.current c).kind = kind →
      w.At (w.next i (Window.current c)) c' d' → Window.size c' < Window.size c →
        (f true c').Agrees w hungry m base good (g true d'))
    (habsent : (Window.current c).kind ≠ kind →
      (f false c).Agrees w hungry m base good (g false d)) :
    ((eat kind >>= f) c).Agrees w hungry m base good ((eat kind >>= g) d) := by
  by_cases h : (Window.current c).kind = kind
  · rw [eat_bind_of_eq h, eat_bind_of_eq ((kind_current hat).trans h)]
    subst h
    exact agrees_advance_bind hat hne hclose fun hnext hlt => hpresent rfl hnext hlt
  · rw [eat_bind_of_ne h, eat_bind_of_ne fun h' => h ((kind_current hat).symm.trans h')]
    exact habsent h

/-- A token that opens and closes nothing is read if it is there. -/
theorem agrees_eat_token_bind {kind : Token.Kind} {f : Bool → Reading σ α}
    {g : Bool → Reading τ β} (hat : w.At i c d) (hne : kind ≠ .eof)
    (hplain : kind.isBracket = false)
    (hpresent : ∀ {c' d'}, (Window.current c).kind = kind →
      w.At (w.next i (Window.current c)) c' d' → Window.size c' < Window.size c →
        (f true c').Agrees w hungry m (w.next i (Window.current c)) good (g true d'))
    (habsent : (Window.current c).kind ≠ kind → (f false c).Agrees w hungry m i good (g false d)) :
    ((eat kind >>= f) c).Agrees w hungry m i good ((eat kind >>= g) d) :=
  agrees_eat_bind hat hne (fun δ h => absurd h (ne_closer hplain δ))
    (fun h hnext hlt => (hpresent h hnext hlt).rebase
      (.plain (w.current hat) (by rw [h]; exact hplain))) habsent

/-! ### Repetition -/

/-- The steps yield nothing where they are, or an item, for which they take a token. -/
def StepsAgree (w : Walk σ τ ι) (hungry : Prop) (item : ι → ι → α → β → Prop)
    (step : Reading σ (Option α)) (step' : Reading τ (Option β)) : Prop :=
  ∀ ⦃i c d⦄, w.At i c d → (step c = .ok none c ∧ step' d = .ok none d) ∨
    (step c).Agrees w hungry (Window.size c) i
      (fun j r r' => ∃ a b, r = some a ∧ r' = some b ∧ item i j a b) (step' d)

/-- Repetitions agree if their steps do, unless the first is given too few rounds. -/
theorem agrees_repeatUpTo {item : ι → ι → α → β → Prop} {step : Reading σ (Option α)}
    {step' : Reading τ (Option β)} (hstep : StepsAgree w hungry item step step') {n n' : Nat}
    (hn : n ≤ n') (hat : w.At i c d) :
    (repeatUpTo step n c).Agrees w (hungry ∨ n ≤ Window.size c) (Window.size c + 1) i
      (Track.Many item i) (repeatUpTo step' n' d) := by
  induction n generalizing n' i c d with
  | zero => exact .starved (.inr (Nat.zero_le _))
  | succ n ih =>
    obtain ⟨n', rfl⟩ : ∃ l, n' = l + 1 := ⟨n' - 1, by omega⟩
    rcases hstep hat with ⟨hc, hd⟩ | hread
    · change ((step c).bind _).Agrees w _ _ i _ ((step' d).bind _)
      rw [hc, hd]
      exact agrees_pure hat (Nat.lt_succ_self _) .nil
    · refine (hread.mono .inl (Nat.le_refl _) id).andThen fun hat' hlt hitem => ?_
      obtain ⟨a, b, rfl, rfl, hitem⟩ := hitem
      refine ((ih (by omega) hat').mono ?_ (Nat.le_refl _) id).andThen fun hat'' hlt' hothers => ?_
      · exact Or.imp_right fun hle => by omega
      · exact agrees_pure hat'' (by omega) (.cons hitem hothers)

/-- Repetitions agree if their steps do: the rounds always suffice for the tokens that are left. -/
theorem agrees_many {item : ι → ι → α → β → Prop} {step : Reading σ (Option α)}
    {step' : Reading τ (Option β)} (hstep : StepsAgree w hungry item step step')
    (hat : w.At i c d) :
    (many step c).Agrees w hungry (Window.size c + 1) i (Track.Many item i) (many step' d) := by
  have hsize := w.size_le hat
  refine (agrees_repeatUpTo hstep (Nat.succ_le_succ hsize) hat).mono ?_ (Nat.le_refl _) id
  exact fun h => h.resolve_right (Nat.not_succ_le_self _)

end Reading

end StyleSheet.Sheet

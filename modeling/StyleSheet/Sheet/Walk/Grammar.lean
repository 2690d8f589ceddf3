import StyleSheet.Sheet.Walk.Rules

/-!
# The walk over the grammar

Whatever trees stand for along a track (`Track.Trees`), readings of the grammar that walk along it
agree: they read expressions and statements that belong together, and take a token at least.  With
as many levels as there are tokens left no reading is starved.
-/

namespace StyleSheet.Sheet

open Reading

variable {σ τ ι : Type} [Window σ] [Window τ] {w : Walk σ τ ι} {hungry : Prop} {i : ι} {c : σ}
  {d : τ}

/-! ### Expressions -/

section Expressions

variable (T : w.Trees)

/-- A token that is an expression by itself. -/
theorem agrees_atom {e e' : Expr} (hat : w.At i c d) (hne : (Window.current c).kind ≠ .eof)
    (hplain : (Window.current c).kind.isBracket = false)
    (he : atom? (Window.current c) = some e) (he' : atom? (Window.current d) = some e') :
    ((advance >>= fun _ => (pure e : Reading σ Expr)) c).Agrees w hungry (Window.size c) i
      (T.Operand i) ((advance >>= fun _ => (pure e' : Reading τ Expr)) d) :=
  agrees_token_bind hat hne hplain fun hat' hlt =>
    agrees_pure hat' hlt (T.atom (w.current hat) he he')

variable {sub : Operator.Precedence → Reading σ Expr}
  {sub' : Operator.Precedence → Reading τ Expr}

/-- What is read by `sub` from fewer tokens agrees. -/
def SubsAgree (hungry : Prop) (bound : Nat) (sub : Operator.Precedence → Reading σ Expr)
    (sub' : Operator.Precedence → Reading τ Expr) : Prop :=
  ∀ ⦃i c d⦄ (floor : Operator.Precedence), w.At i c d → Window.size c < bound →
    (sub floor c).Agrees w hungry (Window.size c) i
      (fun j e e' => T.Value i j e e' ∧ (floor = .unary → T.Operand i j e e')) (sub' floor d)

/-- Operands agree: an atom, a sign with its operand, or an expression in parentheses. -/
theorem agrees_operand (hat : w.At i c d)
    (hsub : SubsAgree T hungry (Window.size c) sub sub') :
    (operand sub c).Agrees w hungry (Window.size c) i (T.Operand i) (operand sub' d) := by
  have htok := w.current hat
  have hkind := kind_current hat
  have htext := w.text_eq htok
  rw [operand, operand, bind_current, bind_current, hkind]
  cases hk : (Window.current c).kind
  case number =>
    refine agrees_token_bind hat (by rw [hk]; exact nofun) (by rw [hk]; rfl) fun hat' hlt => ?_
    rw [htext]
    cases hsplit : splitNumber? (Window.current c).text with
    | some n =>
      refine agrees_pure hat' hlt (T.atom htok ?_ ?_)
      · rw [atom?, hk, hsplit]
        rfl
      · rw [atom?, hkind, hk, htext, hsplit]
        rfl
    | none => exact .failed hat' (w.invalid htok hk hsplit)
  case minus =>
    refine agrees_token_bind hat (by rw [hk]; exact nofun) (by rw [hk]; rfl) fun hat' hlt => ?_
    refine (hsub .unary hat' hlt).andThen fun hat'' hlt' hright => ?_
    exact agrees_pure hat'' (Nat.lt_trans hlt' hlt) (T.negate htok hk (hright.2 rfl))
  case leftParen =>
    refine agrees_advance_bind hat (by rw [hk]; exact nofun) ?_ fun hat' hlt => ?_
    · intro δ h
      rw [hk] at h
      cases δ <;> cases h
    · refine (hsub .lowest hat' hlt).bind fun hat'' hlt' heven hinner => ?_
      refine agrees_expectClose_bind hat'' (.mk htok hk heven) fun hclose hat3 hlt'' => ?_
      exact agrees_pure hat3 (by omega) (T.enclosed htok hk hinner.1 (w.current hat'') hclose)
  -- every other kind is an atom or starts no operand at all
  all_goals first
    | exact agrees_atom T hat (by rw [hk]; exact nofun) (by rw [hk]; rfl)
        (by simp [atom?, hk, Token.Kind.isSelector, Token.Kind.isSimpleSelector])
        (by simp [atom?, hkind, hk, Token.Kind.isSelector, Token.Kind.isSimpleSelector])
    | (have hfail := w.expectedExpression htok
       rw [hkind, hk] at hfail
       exact .failed hat hfail)

/-- Where no operator follows, climbing ends. -/
theorem climb_of_none {n : Nat} {floor : Operator.Precedence} {left : Expr}
    (h : Operator.ofKind? (Window.current c).kind = none) :
    climb sub (n + 1) floor left c = .ok left c := by
  unfold climb
  rw [bind_current, h]
  rfl

/-- At an operator that binds no tighter than the floor, climbing ends. -/
theorem climb_of_le {n : Nat} {floor : Operator.Precedence} {left : Expr} {op : Operator}
    (h : Operator.ofKind? (Window.current c).kind = some op)
    (hle : op.precedence.rank ≤ floor.rank) : climb sub (n + 1) floor left c = .ok left c := by
  unfold climb
  rw [bind_current, h]
  dsimp only
  rw [if_pos hle]
  rfl

/-- At an operator that binds tighter than the floor, climbing takes it and its right side and goes
on. -/
theorem climb_of_lt {n : Nat} {floor : Operator.Precedence} {left : Expr} {op : Operator}
    (h : Operator.ofKind? (Window.current c).kind = some op)
    (hlt : floor.rank < op.precedence.rank) :
    climb sub (n + 1) floor left c = (advance >>= fun _ => sub op.precedence >>= fun right =>
      climb sub n floor (.binary op left right (left.span.merge right.span))) c := by
  conv => lhs; unfold climb
  rw [bind_current, h]
  dsimp only
  rw [if_neg (Nat.not_le.mpr hlt)]

/-- Above the precedence of unary minus no operator is read. -/
theorem climb_unary (n : Nat) (left : Expr) : climb sub (n + 1) .unary left c = .ok left c := by
  cases hop : Operator.ofKind? (Window.current c).kind with
  | none => exact climb_of_none hop
  | some op => exact climb_of_le hop (by cases op <;> decide)

/-- An operator is a token before the end of the input that opens and closes nothing. -/
theorem plain_of_ofKind? {kind : Token.Kind} {op : Operator} (h : Operator.ofKind? kind = some op) :
    kind ≠ .eof ∧ kind.isBracket = false := by
  cases kind <;> cases h <;> exact ⟨nofun, rfl⟩

/-- Climbing agrees from left sides that belong together, unless the first is given too few rounds.
-/
theorem agrees_climb {bound n n' : Nat} (hsub : SubsAgree T hungry bound sub sub') (hn : n ≤ n')
    (floor : Operator.Precedence) {start : ι} {left left' : Expr} (hat : w.At i c d)
    (hbound : Window.size c < bound) (hleft : T.Value start i left left') :
    (climb sub n floor left c).Agrees w (hungry ∨ n ≤ Window.size c) (Window.size c + 1) i
      (T.Value start) (climb sub' n' floor left' d) := by
  induction n generalizing n' i c d left left' with
  | zero => exact .starved (.inr (Nat.zero_le _))
  | succ n ih =>
    obtain ⟨n', rfl⟩ : ∃ l, n' = l + 1 := ⟨n' - 1, by omega⟩
    have hop' := congrArg Operator.ofKind? (kind_current hat)
    cases hop : Operator.ofKind? (Window.current c).kind with
    | none =>
      rw [climb_of_none hop, climb_of_none (hop'.trans hop)]
      exact agrees_pure hat (Nat.lt_succ_self _) hleft
    | some op =>
      by_cases hfloor : op.precedence.rank ≤ floor.rank
      · rw [climb_of_le hop hfloor, climb_of_le (hop'.trans hop) hfloor]
        exact agrees_pure hat (Nat.lt_succ_self _) hleft
      · rw [climb_of_lt hop (Nat.not_le.mp hfloor),
          climb_of_lt (hop'.trans hop) (Nat.not_le.mp hfloor)]
        obtain ⟨hne, hplain⟩ := plain_of_ofKind? hop
        refine agrees_token_bind hat hne hplain fun hat' hlt => ?_
        have hright := hsub op.precedence hat' (Nat.lt_trans hlt hbound)
        refine (hright.mono .inl (Nat.le_refl _) id).andThen fun hat'' hlt' hright => ?_
        have hbinary := T.binary hleft (w.current hat) hop hright.1
        refine (ih (by omega) hat'' (by omega) hbinary).mono ?_ (by omega) id
        exact Or.imp_right fun hle => by omega

/-- An expression is read, and just one operand above the precedence of unary minus. -/
theorem agrees_expressionUpTo {n n' : Nat} (hn : n ≤ n') (floor : Operator.Precedence)
    (hat : w.At i c d) :
    (expressionUpTo n floor c).Agrees w (n ≤ Window.size c) (Window.size c) i
      (fun j e e' => T.Value i j e e' ∧ (floor = .unary → T.Operand i j e e'))
      (expressionUpTo n' floor d) := by
  induction n generalizing n' i c d floor with
  | zero => exact .starved (Nat.zero_le _)
  | succ n ih =>
    obtain ⟨n', rfl⟩ : ∃ l, n' = l + 1 := ⟨n' - 1, by omega⟩
    have hsub : SubsAgree T (n + 1 ≤ Window.size c) (Window.size c) (expressionUpTo n)
        (expressionUpTo n' : Operator.Precedence → Reading τ Expr) := fun i c' d' floor hat' hlt =>
      (ih (by omega) floor hat').mono (fun hle => by omega) (Nat.le_refl _) id
    refine (agrees_operand T hat hsub).andThen fun hat' hlt hfirst => ?_
    by_cases hfloor : floor = .unary
    · subst hfloor
      rw [climb_unary, climb_unary]
      exact agrees_pure hat' hlt ⟨T.operand hfirst, fun _ => hfirst⟩
    · refine (agrees_climb T hsub hn floor hat' hlt (T.operand hfirst)).mono ?_ (by omega) ?_
      · exact fun h => h.elim id fun hle => by omega
      · exact fun he => ⟨he, fun h => absurd h hfloor⟩

/-- A reading that is given as many levels as there are tokens is not starved. -/
theorem agrees_expression (hat : w.At i c d) :
    (expression c).Agrees w hungry (Window.size c) i (T.Value i) (expression d) :=
  (agrees_expressionUpTo T (Nat.succ_le_succ (w.size_le hat)) .lowest hat).mono
    (fun h => absurd h (Nat.not_succ_le_self _)) (Nat.le_refl _) And.left

end Expressions

/-! ### Parts of statements -/

section Parts

/-- Ends of statements agree: a semicolon, or a place where it may be left out. -/
theorem agrees_endStatement (hat : w.At i c d) :
    (endStatement c).Agrees w hungry (Window.size c + 1) i (fun j _ _ => w.End i j)
      (endStatement d) := by
  have htok := w.current hat
  refine agrees_eat_token_bind hat nofun rfl (fun hk hat' hlt => ?_) fun _ => ?_
  · exact agrees_pure hat' (by omega) (.semicolon htok hk)
  · refine agrees_check_ite hat (fun hk => ?_) fun _ =>
      agrees_isAtEnd_ite hat (fun hk => ?_) fun _ => ?_
    · exact agrees_pure hat (Nat.lt_succ_self _) (.absent htok (.inl hk))
    · exact agrees_pure hat (Nat.lt_succ_self _) (.absent htok (.inr hk))
    · exact agrees_unexpected hat (by decide)

/-- Single flags agree. -/
theorem stepsAgree_flag? :
    StepsAgree w hungry (w.One fun t f => t.kind = Flag.kind f) flag? flag? := by
  intro i c d hat
  have hkind := kind_current hat
  by_cases hglobal : (Window.current c).kind = .keyword .bangGlobal
  · refine .inr (agrees_eat_token_bind hat nofun rfl (fun hk hat' hlt => ?_) fun h => ?_)
    · exact agrees_pure hat' hlt ⟨_, _, rfl, rfl, .mk (w.current hat) hk (hkind.trans hk)⟩
    · exact absurd hglobal h
  · rw [flag?, flag?, eat_bind_of_ne hglobal, eat_bind_of_ne fun h => hglobal (hkind.symm.trans h)]
    change ((eat _ >>= _) c = _ ∧ (eat _ >>= _) d = _) ∨ ((eat _ >>= _) c).Agrees _ _ _ _ _
      ((eat _ >>= _) d)
    by_cases hdefault : (Window.current c).kind = .keyword .bangDefault
    · refine .inr (agrees_eat_token_bind hat nofun rfl (fun hk hat' hlt => ?_) fun h => ?_)
      · exact agrees_pure hat' hlt ⟨_, _, rfl, rfl, .mk (w.current hat) hk (hkind.trans hk)⟩
      · exact absurd hdefault h
    · rw [eat_bind_of_ne hdefault, eat_bind_of_ne fun h => hdefault (hkind.symm.trans h)]
      exact .inl ⟨rfl, rfl⟩

/-- Single values of a list agree. -/
theorem stepsAgree_value? (T : w.Trees) : StepsAgree w hungry T.Value value? value? := by
  intro i c d hat
  have hvalue : ((do return some (← expression) : Reading σ (Option Expr)) c).Agrees w hungry
      (Window.size c) i (fun j r r' => ∃ a b, r = some a ∧ r' = some b ∧ T.Value i j a b)
      ((do return some (← expression) : Reading τ (Option Expr)) d) :=
    (agrees_expression T hat).andThen fun hat' hlt he =>
      agrees_pure hat' hlt ⟨_, _, rfl, rfl, he⟩
  rw [value?, value?, bind_current, bind_current, kind_current hat]
  cases (Window.current c).kind
  case keyword k => cases k <;> first | exact .inl ⟨rfl, rfl⟩ | exact .inr hvalue
  all_goals first | exact .inl ⟨rfl, rfl⟩ | exact .inr hvalue

/-- Selectors are tokens before the end of the input that open and close nothing. -/
theorem plain_of_isSelector {kind : Token.Kind} (h : kind.isSelector = true) :
    kind ≠ .eof ∧ kind.isBracket = false := by
  cases kind <;> cases h <;> exact ⟨nofun, rfl⟩

/-- A token that is yielded as it is. -/
theorem agrees_some_advance {made : Token → Token → Prop} (hat : w.At i c d)
    (hplain : (Window.current c).kind ≠ .eof ∧ (Window.current c).kind.isBracket = false)
    (hmade : ∀ t : Token, t.kind = (Window.current c).kind → made t t) :
    ((do return some (← advance) : Reading σ (Option Token)) c).Agrees w hungry (Window.size c) i
      (fun j r r' => ∃ a b, r = some a ∧ r' = some b ∧ w.One made i j a b)
      ((do return some (← advance) : Reading τ (Option Token)) d) :=
  agrees_token_bind hat hplain.1 hplain.2 fun hat' hlt => agrees_pure hat' hlt
    ⟨_, _, rfl, rfl, .mk (w.current hat) (hmade _ rfl) (hmade _ (kind_current hat))⟩

/-- Single tokens of a selector agree. -/
theorem stepsAgree_headerToken? :
    StepsAgree w hungry (w.One InHeader) headerToken? headerToken? := by
  intro i c d hat
  rw [headerToken?, headerToken?, bind_current, bind_current, kind_current hat]
  by_cases hbrace : (Window.current c).kind = .leftBrace
  · simp only [hbrace, if_true]
    exact .inl ⟨rfl, rfl⟩
  · refine .inr ?_
    simp only [hbrace, if_false]
    by_cases hpart : (Window.current c).kind.isSelector = true ∨ (Window.current c).kind = .comma
    · rw [if_pos (by simpa using hpart), if_pos (by simpa using hpart)]
      refine agrees_some_advance hat ?_ fun t ht => ⟨by rw [ht]; exact hpart, rfl⟩
      rcases hpart with hselector | hcomma
      · exact plain_of_isSelector hselector
      · rw [hcomma]
        exact ⟨nofun, rfl⟩
    · rw [if_neg (by simpa using hpart), if_neg (by simpa using hpart)]
      exact agrees_unexpected hat (by decide)

/-- Single tokens of the target of an extension agree. -/
theorem stepsAgree_targetToken? :
    StepsAgree w hungry (w.One InTarget) targetToken? targetToken? := by
  intro i c d hat
  rw [targetToken?, targetToken?, bind_current, bind_current, kind_current hat]
  by_cases hpart : (Window.current c).kind.isSelector = true ∨ (Window.current c).kind = .string
  · rw [if_pos (by simpa using hpart), if_pos (by simpa using hpart)]
    refine .inr (agrees_some_advance hat ?_ fun t ht => ⟨by rw [ht]; exact hpart, rfl⟩)
    rcases hpart with hselector | hstring
    · exact plain_of_isSelector hselector
    · rw [hstring]
      exact ⟨nofun, rfl⟩
  · rw [if_neg (by simpa using hpart), if_neg (by simpa using hpart)]
    exact .inl ⟨rfl, rfl⟩

/-- Names of mixins agree. -/
theorem agrees_mixinName (hat : w.At i c d) :
    (mixinName c).Agrees w hungry (Window.size c) i (w.One IsNamed i) (mixinName d) := by
  have hname : (Window.current c).kind.isMixinName = true →
      ((do return (← advance).text : Reading σ String) c).Agrees w hungry (Window.size c) i
        (w.One IsNamed i) ((do return (← advance).text : Reading τ String) d) := by
    intro hk
    have hplain : (Window.current c).kind ≠ .eof ∧
        (Window.current c).kind.isBracket = false := by
      generalize (Window.current c).kind = kind at hk
      cases kind <;> cases hk <;> exact ⟨nofun, rfl⟩
    have hk' : (Window.current d).kind.isMixinName = true := by
      rw [kind_current hat]
      exact hk
    exact agrees_token_bind hat hplain.1 hplain.2 fun hat' hlt =>
      agrees_pure hat' hlt (.mk (w.current hat) ⟨hk, rfl⟩ ⟨hk', rfl⟩)
  rw [mixinName, mixinName, bind_current, bind_current, kind_current hat]
  cases hk : (Window.current c).kind
  all_goals first
    | exact hname (by rw [hk]; rfl)
    | exact agrees_unexpected hat (by decide)

/-- Parameters of mixins agree. -/
theorem agrees_parameter (hat : w.At i c d) :
    (parameter c).Agrees w hungry (Window.size c) i (w.One IsParameter i) (parameter d) :=
  agrees_expect_token_bind hat nofun rfl (by decide) fun hk hat' hlt =>
    agrees_pure hat' hlt (.mk (w.current hat) ⟨hk, rfl⟩ ⟨(kind_current hat).trans hk, rfl⟩)

variable {α β : Type} {item : ι → ι → α → β → Prop} {x : Reading σ α} {y : Reading τ β}

/-- Lists with commas agree if their items do, unless the first is given too few rounds. -/
theorem agrees_separatedUpTo
    (hitem : ∀ ⦃i c d⦄, w.At i c d → (x c).Agrees w hungry (Window.size c) i (item i) (y d))
    {n n' : Nat} (hn : n ≤ n') (hat : w.At i c d) :
    (separatedUpTo x n c).Agrees w (hungry ∨ n ≤ Window.size c) (Window.size c + 1) i
      (w.Separated item i) (separatedUpTo y n' d) := by
  induction n generalizing n' i c d with
  | zero => exact .starved (.inr (Nat.zero_le _))
  | succ n ih =>
    obtain ⟨n', rfl⟩ : ∃ l, n' = l + 1 := ⟨n' - 1, by omega⟩
    refine agrees_check_ite hat (fun _ => ?_) fun _ =>
      agrees_isAtEnd_ite hat (fun _ => ?_) fun _ => ?_
    · exact agrees_pure hat (Nat.lt_succ_self _) .nil
    · exact agrees_pure hat (Nat.lt_succ_self _) .nil
    · refine ((hitem hat).mono .inl (Nat.le_refl _) id).andThen fun hat' hlt hfirst => ?_
      refine agrees_eat_token_bind hat' nofun rfl (fun hk hat'' hlt' => ?_) fun _ => ?_
      · refine ((ih (by omega) hat'').mono ?_ (Nat.le_refl _) id).andThen
          fun hat3 hlt'' hothers => ?_
        · exact Or.imp_right fun hle => by omega
        · exact agrees_pure hat3 (by omega) (.cons hfirst (w.current hat') hk hothers)
      · exact agrees_pure hat' (by omega) (.last hfirst)

/-- Lists in parentheses, which may be missing, agree if their items do. -/
theorem agrees_parenthesized
    (hitem : ∀ ⦃i c d⦄, w.At i c d → (x c).Agrees w hungry (Window.size c) i (item i) (y d))
    (hat : w.At i c d) :
    (parenthesized x c).Agrees w hungry (Window.size c + 1) i (w.Parenthesized item i)
      (parenthesized y d) := by
  refine agrees_check_ite hat (fun hopen => ?_) fun _ => ?_
  · refine agrees_advance_bind hat (by rw [hopen]; exact nofun) ?_ fun hat' hlt => ?_
    · intro δ h
      rw [hopen] at h
      cases δ <;> cases h
    · have hitems := (agrees_separatedUpTo hitem (Nat.succ_le_succ (w.size_le hat')) hat').mono
        (fun h => h.resolve_right (Nat.not_succ_le_self _)) (Nat.le_refl _) id
      refine hitems.bind fun hat'' hlt' heven hitems => ?_
      refine agrees_expectClose_bind hat'' (.mk (w.current hat) hopen heven)
        fun hclose hat3 hlt'' => ?_
      exact agrees_pure hat3 (by omega)
        (.present (w.current hat) hopen hitems (w.current hat'') hclose)
  · exact agrees_pure hat (Nat.lt_succ_self _) .absent

end Parts

/-! ### Statements -/

section Statements

variable (T : w.Trees)

/-- Assignments agree. -/
theorem agrees_assignment (hat : w.At i c d) (hk : (Window.current c).kind = .variableName) :
    (assignment c).Agrees w hungry (Window.size c) i (T.Statement i) (assignment d) := by
  refine agrees_token_bind hat (by rw [hk]; exact nofun) (by rw [hk]; rfl) fun hat1 hlt1 => ?_
  refine agrees_expect_token_bind hat1 nofun rfl (by decide) fun hcolon hat2 hlt2 => ?_
  refine (agrees_expression T hat2).andThen fun hat3 hlt3 hvalue => ?_
  refine (agrees_many stepsAgree_flag? hat3).andThen fun hat4 hlt4 hflags => ?_
  refine agrees_lastSpan_bind ((agrees_endStatement hat4).andThen fun hat5 hlt5 hend => ?_)
  obtain rfl := hflags.eq fun hone => by
    obtain ⟨ht, ha, hb⟩ := hone
    have hkind := ha.symm.trans ((w.kind_eq ht).symm.trans hb)
    rename_i f f' _ _
    cases f <;> cases f' <;> first | rfl | cases hkind
  exact agrees_pure hat5 (by omega) (T.assign (w.current hat) hk (w.current hat1) hcolon hvalue
    hflags (w.last hat4) hend)

/-- Declarations agree. -/
theorem agrees_declaration (hat : w.At i c d) (hk : (Window.current c).kind = .property) :
    (declaration c).Agrees w hungry (Window.size c) i (T.Statement i) (declaration d) := by
  refine agrees_token_bind hat (by rw [hk]; exact nofun) (by rw [hk]; rfl) fun hat1 hlt1 => ?_
  refine agrees_expect_token_bind hat1 nofun rfl (by decide) fun hcolon hat2 hlt2 => ?_
  refine (agrees_expression T hat2).andThen fun hat3 hlt3 hfirst => ?_
  refine (agrees_many (stepsAgree_value? T) hat3).andThen fun hat4 hlt4 hothers => ?_
  refine agrees_eat_token_bind hat4 nofun rfl (fun hmark hat5 hlt5 => ?_) fun _ => ?_
  · refine agrees_lastSpan_bind ((agrees_endStatement hat5).andThen fun hat6 hlt6 hend => ?_)
    exact agrees_pure hat6 (by omega) (T.declare (w.current hat) hk (w.current hat1) hcolon hfirst
      hothers (.present (w.current hat4) hmark) (w.last hat5) hend)
  · refine agrees_lastSpan_bind ((agrees_endStatement hat4).andThen fun hat5 hlt5 hend => ?_)
    exact agrees_pure hat5 (by omega) (T.declare (w.current hat) hk (w.current hat1) hcolon hfirst
      hothers .absent (w.last hat4) hend)

/-- Imports agree. -/
theorem agrees_importation (hat : w.At i c d)
    (hk : (Window.current c).kind = .keyword .atImport) :
    (importation c).Agrees w hungry (Window.size c) i (T.Statement i) (importation d) := by
  refine agrees_token_bind hat (by rw [hk]; exact nofun) (by rw [hk]; rfl) fun hat1 hlt1 => ?_
  refine agrees_expect_token_bind hat1 nofun rfl (by decide) fun hpath hat2 hlt2 => ?_
  refine (agrees_endStatement hat2).andThen fun hat3 hlt3 hend => ?_
  exact agrees_pure hat3 (by omega) (T.importFile (w.current hat) hk (w.current hat1) hpath hend)

/-- Expansions of mixins agree. -/
theorem agrees_expansion (hat : w.At i c d) (hk : (Window.current c).kind = .keyword .atInclude) :
    (expansion c).Agrees w hungry (Window.size c) i (T.Statement i) (expansion d) := by
  refine agrees_token_bind hat (by rw [hk]; exact nofun) (by rw [hk]; rfl) fun hat1 hlt1 => ?_
  refine (agrees_mixinName hat1).andThen fun hat2 hlt2 hname => ?_
  refine (agrees_parenthesized (fun _ _ _ => agrees_expression T) hat2).andThen
    fun hat3 hlt3 hargs => ?_
  refine agrees_lastSpan_bind ((agrees_endStatement hat3).andThen fun hat4 hlt4 hend => ?_)
  exact agrees_pure hat4 (by omega) (T.expand (w.current hat) hk hname hargs (w.last hat3) hend)

/-- Extensions agree. -/
theorem agrees_extension (hat : w.At i c d) (hk : (Window.current c).kind = .keyword .atExtend) :
    (extension c).Agrees w hungry (Window.size c) i (T.Statement i) (extension d) := by
  refine agrees_token_bind hat (by rw [hk]; exact nofun) (by rw [hk]; rfl) fun hat1 hlt1 => ?_
  refine (agrees_many stepsAgree_targetToken? hat1).andThen
    fun {_ target target' _ _} hat2 hlt2 htarget => ?_
  rw [htarget.isEmpty_eq]
  cases hempty : target.isEmpty with
  | true => exact agrees_unexpected hat2 (by decide)
  | false =>
    refine agrees_lastSpan_bind ((agrees_endStatement hat2).andThen fun hat3 hlt3 hend => ?_)
    refine agrees_pure hat3 (by omega) (T.extend (w.current hat) hk htarget ?_ (w.last hat2) hend)
    rintro rfl
    cases hempty

/-- Expressions that stand as statements agree. -/
theorem agrees_expressionStatement (hat : w.At i c d)
    (hk : (Window.current c).kind.isSimpleSelector = false) :
    (expressionStatement c).Agrees w hungry (Window.size c) i (T.Statement i)
      (expressionStatement d) := by
  refine (agrees_expression T hat).andThen fun hat1 hlt1 hvalue => ?_
  refine (agrees_endStatement hat1).andThen fun hat2 hlt2 hend => ?_
  exact agrees_pure hat2 (by omega) (T.expr (w.current hat) hk hvalue hend)

/-- What is read behind opening braces from fewer tokens agrees. -/
def InnersAgree (hungry : Prop) (bound : Nat) (inner : Span → Reading σ (List Stmt))
    (inner' : Span → Reading τ (List Stmt)) : Prop :=
  ∀ ⦃i c d o o'⦄, w.Tok i o o' → o.kind = .leftBrace → w.At (w.next i o) c d →
    Window.size c < bound →
    (inner o.span c).Agrees w hungry (Window.size c) i (w.Body T.Statement (w.next i o))
      (inner' o'.span d)

variable {T} {bound : Nat} {inner : Span → Reading σ (List Stmt)}
  {inner' : Span → Reading τ (List Stmt)} (hinner : InnersAgree T hungry bound inner inner')

include hinner

/-- Blocks in braces agree if the statements in them do. -/
theorem agrees_block (hat : w.At i c d) (hbound : Window.size c ≤ bound) :
    (block inner c).Agrees w hungry (Window.size c) i (w.Braced T.Statement i)
      (block inner' d) := by
  refine agrees_expect_bind hat nofun (by decide) (fun δ h => by cases δ <;> cases h)
    fun hopen hat1 hlt1 => ?_
  have hbody := hinner (w.current hat) hopen hat1 (by omega)
  refine hbody.andThen fun hat2 hlt2 hbody => agrees_lastSpan_bind ?_
  exact agrees_pure hat2 (by omega) (.mk (w.current hat) hopen hbody (w.last hat2))

omit hinner in
/-- The simple selector that a header starts with is the first of its tokens. -/
theorem agrees_header (hat : w.At i c d) (hk : (Window.current c).kind.isSimpleSelector = true) :
    (many headerToken? c).Agrees w hungry (Window.size c) i
      (fun j header header' => ∃ others others', header = Window.current c :: others ∧
        header' = Window.current d :: others' ∧
        Track.Many (w.One InHeader) (w.next i (Window.current c)) j others others')
      (many headerToken? d) := by
  have hselector : (Window.current c).kind.isSelector = true := by
    unfold Token.Kind.isSelector
    split <;> first | rfl | exact hk
  have hfirst : (headerToken? c).Agrees w hungry (Window.size c) i
      (fun j r r' => r = some (Window.current c) ∧ r' = some (Window.current d) ∧
        j = w.next i (Window.current c)) (headerToken? d) := by
    rw [headerToken?, headerToken?, bind_current, bind_current, kind_current hat]
    obtain ⟨hne, hplain⟩ := plain_of_isSelector hselector
    have hbrace : (Window.current c).kind ≠ .leftBrace := by
      intro h
      rw [h] at hplain
      cases hplain
    simp only [hbrace, hselector, Bool.true_or, if_true, if_false]
    exact agrees_token_bind hat hne hplain fun hat' hlt => agrees_pure hat' hlt ⟨rfl, rfl, rfl⟩
  refine hfirst.andThen fun hat1 hlt1 hread => ?_
  obtain ⟨rfl, rfl, rfl⟩ := hread
  have hsteps : StepsAgree w hungry (w.One InHeader) headerToken? headerToken? :=
    stepsAgree_headerToken?
  have hothers := agrees_repeatUpTo hsteps (w.size_le hat) hat1
  refine (hothers.mono ?_ (Nat.le_refl _) id).andThen fun hat2 hlt2 hothers => ?_
  · exact fun h => h.resolve_right (Nat.not_le.mpr hlt1)
  · exact agrees_pure hat2 (by omega) ⟨_, _, rfl, rfl, hothers⟩

/-- Rulesets agree if the statements in them do. -/
theorem agrees_ruleset (hat : w.At i c d) (hbound : Window.size c ≤ bound)
    (hk : (Window.current c).kind.isSimpleSelector = true) :
    (ruleset inner c).Agrees w hungry (Window.size c) i (T.Statement i) (ruleset inner' d) := by
  rw [ruleset, ruleset, bind_current, bind_current]
  refine (agrees_header hat hk).andThen fun hat1 hlt1 hheader => ?_
  obtain ⟨others, others', rfl, rfl, hheader⟩ := hheader
  refine (agrees_block hinner hat1 (by omega)).andThen fun hat2 hlt2 hbody => ?_
  refine agrees_lastSpan_bind (agrees_pure hat2 (by omega) ?_)
  exact T.ruleset (w.current hat) hk hheader hbody (w.last hat2)

/-- Definitions of mixins agree if the statements in them do. -/
theorem agrees_mixinDefinition (hat : w.At i c d) (hbound : Window.size c ≤ bound)
    (hk : (Window.current c).kind = .keyword .atMixin) :
    (mixinDefinition inner c).Agrees w hungry (Window.size c) i (T.Statement i)
      (mixinDefinition inner' d) := by
  refine agrees_token_bind hat (by rw [hk]; exact nofun) (by rw [hk]; rfl) fun hat1 hlt1 => ?_
  refine (agrees_mixinName hat1).andThen fun hat2 hlt2 hname => ?_
  refine (agrees_parenthesized (fun _ _ _ => agrees_parameter) hat2).andThen
    fun hat3 hlt3 hparams => ?_
  refine (agrees_block hinner hat3 (by omega)).andThen fun hat4 hlt4 hbody => ?_
  exact agrees_pure hat4 (by omega) (T.mixin (w.current hat) hk hname hparams hbody)

/-- A block of `@if` may have an alternative, and a further condition is one. -/
theorem agrees_alternative {chained : Reading σ Stmt} {chained' : Reading τ Stmt}
    (hat : w.At i c d) (hbound : Window.size c ≤ bound)
    (hchained : ∀ ⦃i c' d'⦄, w.At i c' d' → Window.size c' < Window.size c →
      (Window.current c').kind = .keyword .atIf →
      (chained c').Agrees w hungry (Window.size c') i (T.Statement i) (chained' d')) :
    (alternative inner chained c).Agrees w hungry (Window.size c + 1) i
      (w.Otherwise T.Statement i) (alternative inner' chained' d) := by
  refine agrees_eat_token_bind hat nofun rfl (fun helse hat1 hlt1 => ?_) fun _ => ?_
  · refine agrees_check_ite hat1 (fun hif => ?_) fun _ => ?_
    · refine (hchained hat1 hlt1 hif).andThen fun hat2 hlt2 hnext => ?_
      exact agrees_pure hat2 (by omega)
        (.chained (w.current hat) helse (w.current hat1) hif hnext)
    · refine (agrees_block hinner hat1 (by omega)).andThen fun hat2 hlt2 hblock => ?_
      exact agrees_pure hat2 (by omega) (.block (w.current hat) helse hblock)
  · exact agrees_pure hat (Nat.lt_succ_self _) .absent

/-- Conditions with their branches agree, unless the first is given too few branches. -/
theorem agrees_conditionalUpTo {n n' : Nat} (hn : n ≤ n') (hat : w.At i c d)
    (hbound : Window.size c ≤ bound) (hk : (Window.current c).kind = .keyword .atIf) :
    (conditionalUpTo inner n c).Agrees w (hungry ∨ n ≤ Window.size c) (Window.size c) i
      (T.Statement i) (conditionalUpTo inner' n' d) := by
  induction n generalizing n' i c d with
  | zero => exact .starved (.inr (Nat.zero_le _))
  | succ n ih =>
    obtain ⟨n', rfl⟩ : ∃ l, n' = l + 1 := ⟨n' - 1, by omega⟩
    have hwider : InnersAgree T (hungry ∨ n + 1 ≤ Window.size c) bound inner inner' :=
      fun _ _ _ _ _ ho hopen hat hlt => (hinner ho hopen hat hlt).mono .inl (Nat.le_refl _) id
    refine agrees_token_bind hat (by rw [hk]; exact nofun) (by rw [hk]; rfl) fun hat1 hlt1 => ?_
    refine (agrees_expression T hat1).andThen fun hat2 hlt2 hcondition => ?_
    refine (agrees_block hwider hat2 (by omega)).andThen fun hat3 hlt3 hyes => ?_
    refine (agrees_alternative hwider hat3 (by omega) fun i c' d' hat' hlt' hif => ?_).andThen
      fun hat4 hlt4 hno => agrees_lastSpan_bind (agrees_pure hat4 (by omega) ?_)
    · exact (ih (by omega) hat' (by omega) hif).mono (Or.imp_right fun hle => by omega)
        (Nat.le_refl _) id
    · exact T.branch (w.current hat) hk hcondition hyes hno (w.last hat4)

/-- Conditions agree: the branches that may be read always suffice. -/
theorem agrees_conditional (hat : w.At i c d) (hbound : Window.size c ≤ bound)
    (hk : (Window.current c).kind = .keyword .atIf) :
    (conditional inner c).Agrees w hungry (Window.size c) i (T.Statement i)
      (conditional inner' d) :=
  (agrees_conditionalUpTo hinner (Nat.succ_le_succ (w.size_le hat)) hat hbound hk).mono
    (fun h => h.resolve_right (Nat.not_succ_le_self _)) (Nat.le_refl _) id

/-- A statement or a lone semicolon is read, as the first two tokens tell. -/
theorem agrees_statement (hat : w.At i c d) (hbound : Window.size c ≤ bound) :
    (statement inner c).Agrees w hungry (Window.size c) i (w.Item T.Statement i)
      (statement inner' d) := by
  have hexpression : (Window.current c).kind.isSimpleSelector = false →
      ((some <$> expressionStatement) c).Agrees w hungry (Window.size c) i
        (w.Item T.Statement i) ((some <$> expressionStatement) d) :=
    fun hk => (agrees_expressionStatement T hat hk).map .statement
  rw [statement, statement, bind_window, bind_window, kind_current hat, w.ahead hat]
  cases hk : (Window.current c).kind
  case semicolon =>
    refine agrees_token_bind hat (by rw [hk]; exact nofun) (by rw [hk]; rfl) fun hat' hlt => ?_
    exact agrees_pure hat' hlt (.semicolon (w.current hat) hk)
  case variableName =>
    dsimp only
    split
    · exact (agrees_assignment T hat hk).map .statement
    · exact hexpression (by rw [hk]; rfl)
  case property =>
    dsimp only
    split
    · exact (agrees_declaration T hat hk).map .statement
    · exact hexpression (by rw [hk]; rfl)
  case keyword k =>
    cases k
    case atImport => exact (agrees_importation T hat hk).map .statement
    case atMixin => exact (agrees_mixinDefinition hinner hat hbound hk).map .statement
    case atInclude => exact (agrees_expansion T hat hk).map .statement
    case atExtend => exact (agrees_extension T hat hk).map .statement
    case atIf => exact (agrees_conditional hinner hat hbound hk).map .statement
    all_goals exact hexpression (by rw [hk]; rfl)
  all_goals first
    | exact hexpression (by rw [hk]; rfl)
    | exact (agrees_ruleset hinner hat hbound (by rw [hk]; rfl)).map .statement

end Statements

/-! ### Whole sheets -/

section Sheets

/-- A closing brace ends a block, and is taken. -/
theorem isOver_bind_of_close {α : Type} {opened : Span} {f : Bool → Reading σ α}
    (h : (Window.current c).kind = .rightBrace) :
    (isOver (some opened) >>= f) c = (advance >>= fun _ => f true) c := by
  change (isOver (some opened) c).bind f = _
  rw [isOver, eat_bind_of_eq h]
  change ((advance c).bind _).bind f = (advance c).bind _
  cases advance c <;> rfl

/-- At the end of the input the brace that opened the block is to blame. -/
theorem isOver_of_eof {opened : Span} (h : (Window.current c).kind = .eof) :
    isOver (some opened) c = .failed (.unclosed .brace opened) c := by
  rw [isOver, eat_bind_of_ne (by rw [h]; exact nofun)]
  change (if Window.isAtEnd c then _ else _ : Reading σ Bool) c = _
  rw [if_pos (Window.isAtEnd_iff.mpr h)]
  rfl

/-- Any other token goes on with the block. -/
theorem isOver_of_ne {opened : Span} (hclose : (Window.current c).kind ≠ .rightBrace)
    (heof : (Window.current c).kind ≠ .eof) : isOver (some opened) c = .ok false c := by
  rw [isOver, eat_bind_of_ne hclose]
  change (if Window.isAtEnd c then _ else _ : Reading σ Bool) c = _
  rw [if_neg fun h => heof (Window.isAtEnd_iff.mp h)]
  rfl

/-- Statements behind an opening brace are read up to the closing one. -/
theorem agrees_bodyUpTo (T : w.Trees) {n n' : Nat} (hn : n ≤ n') {base : ι} {o o' : Token}
    (ho : w.Tok base o o') (hopen : o.kind = .leftBrace) (hat : w.At i c d)
    (heven : w.Balanced (w.next base o) i) :
    (statementsUpTo n (some o.span) c).Agrees w (n ≤ Window.size c) (Window.size c) base
      (w.Body T.Statement i) (statementsUpTo n' (some o'.span) d) := by
  induction n generalizing n' base o o' i c d with
  | zero => exact .starved (Nat.zero_le _)
  | succ n ih =>
    obtain ⟨n', rfl⟩ : ∃ l, n' = l + 1 := ⟨n' - 1, by omega⟩
    have hkind := kind_current hat
    have hopened : w.Opened .brace base i o.span o'.span := .mk ho hopen heven
    rw [statementsUpTo, statementsUpTo]
    by_cases hclose : (Window.current c).kind = .rightBrace
    · rw [isOver_bind_of_close hclose, isOver_bind_of_close (hkind.trans hclose)]
      refine agrees_advance_bind hat (by rw [hclose]; exact nofun) (fun δ h => ?_)
        fun hat' hlt => ?_
      · obtain rfl : δ = .brace := by
          rw [hclose] at h
          cases δ <;> first | rfl | cases h
        exact ⟨base, _, _, hopened⟩
      · refine Reply.Agrees.rebase (hopened.close (w.current hat) hclose) ?_
        exact agrees_pure hat' hlt (.mk .nil (w.current hat) hclose)
    · change ((isOver _ c).bind _).Agrees _ _ _ _ _ ((isOver _ d).bind _)
      by_cases heof : (Window.current c).kind = .eof
      · rw [isOver_of_eof heof, isOver_of_eof (hkind.trans heof)]
        exact .failed hat (w.unclosed hopened (w.current hat) heof)
      · rw [isOver_of_ne hclose heof, isOver_of_ne (fun h => hclose (hkind.symm.trans h))
          fun h => heof (hkind.symm.trans h)]
        -- blocks inside of the statement are read with one level less, and there is one token less
        -- for them
        have hinner : InnersAgree T (n + 1 ≤ Window.size c) (Window.size c)
            (fun opened => statementsUpTo n (some opened))
            (fun opened => (statementsUpTo n' (some opened) : Reading τ (List Stmt))) := by
          intro i c' d' o o' ho hopen hat' hlt
          exact (ih (by omega) ho hopen hat' .refl).mono (fun hle => by omega) (Nat.le_refl _) id
        refine (agrees_statement hinner hat (Nat.le_refl _)).bind fun hat1 hlt1 heven1 hfirst => ?_
        have hothers := ih (Nat.le_of_succ_le_succ hn) ho hopen hat1 (heven.trans heven1)
        refine (hothers.mono ?_ (Nat.le_refl _) id).andThen fun hat2 hlt2 hothers => ?_
        · exact fun hle => Nat.lt_of_le_of_lt hle hlt1
        · obtain ⟨inside, hc, hclose⟩ := hothers
          exact agrees_pure hat2 (by omega) (.mk (hfirst.cons inside) hc hclose)

/-- All statements are read up to the end of the input. -/
theorem agrees_statementsUpTo (T : w.Trees) {n n' : Nat} (hn : n ≤ n') (hat : w.At i c d) :
    (statementsUpTo n none c).Agrees w (n ≤ Window.size c) (Window.size c + 1) i
      (fun j as bs => w.Statements T.Statement i j as bs ∧ ∃ t t', w.Tok j t t' ∧ t.kind = .eof)
      (statementsUpTo n' none d) := by
  induction n generalizing n' i c d with
  | zero => exact .starved (Nat.zero_le _)
  | succ n ih =>
    obtain ⟨n', rfl⟩ : ∃ l, n' = l + 1 := ⟨n' - 1, by omega⟩
    refine agrees_isAtEnd_ite hat (fun heof => ?_) fun heof => ?_
    · exact agrees_pure hat (Nat.lt_succ_self _) ⟨.nil, _, _, w.current hat, heof⟩
    · have hinner : InnersAgree T (n + 1 ≤ Window.size c) (Window.size c)
          (fun opened => statementsUpTo n (some opened))
          (fun opened => (statementsUpTo n' (some opened) : Reading τ (List Stmt))) := by
        intro i c' d' o o' ho hopen hat' hlt
        exact (agrees_bodyUpTo T (by omega) ho hopen hat' .refl).mono (fun hle => by omega)
          (Nat.le_refl _) id
      refine (agrees_statement hinner hat (Nat.le_refl _)).andThen fun hat1 hlt1 hfirst => ?_
      refine ((ih (by omega) hat1).mono ?_ (Nat.le_refl _) id).andThen fun hat2 hlt2 hothers => ?_
      · exact fun hle => Nat.lt_of_le_of_lt hle hlt1
      · exact agrees_pure hat2 (by omega) ⟨hfirst.cons hothers.1, hothers.2⟩

end Sheets

end StyleSheet.Sheet

import StyleSheet.Proofs.Grammar.Soundness

/-!
# Readings accept the forms of the grammar

The converse of soundness: tokens of a form are read, and what is left is just what follows the
form.  A reading goes on as long as it can, so a form has to be followed by something that it cannot
go on with.  Two places need an argument of their own.

* Operators are read by precedence climbing, which stops inside a sequence of operations where an
  operator does not bind strongly enough.  `AcceptsAbove` states where: what is left is again a
  sequence of operations, and its first operator does not bind more strongly than the floor.
* In the list of values of a declaration a minus sign can start a value or join two of them.  The
  reading always joins, and the list can be cut in that way too (`exists_joined`).
-/

namespace StyleSheet.Sheet

open Form Reading Cursor

/-! ### Expressions -/

section Expressions

variable {sub : Operator.Precedence → Reading Cursor Expr} {t : Token} {ts us : List Token}
  {rest : Kinds}

/-- A token that is an operand by itself is read. -/
lemma accepts_operand_atom (hk : IsAtom t.kind) : Accepts (operand sub) (t :: us) (kinds us) := by
  have hread : ∀ e : Expr, Accepts (advance >>= fun _ => pure e) (t :: us) (kinds us) :=
    fun e => .advance_bind (accepts_pure e us)
  intro before stop hr
  rw [operand, bind_current, current_on_cons]
  rcases hk with hk | hk | hk | hk | hk | hk | hk
  case inr.inl =>
    obtain ⟨x, unit, hsplit⟩ := hr.splits hk
    rw [hk]
    dsimp only
    rw [hsplit]
    exact hread (.number x unit t.span) before stop hr
  case inr.inr.inr.inr.inr.inr =>
    cases hkind : t.kind <;> rw [hkind] at hk <;> first
      | exact hread (.selector t) before stop hr
      | cases hk
  all_goals
    rw [hk]
    exact hread _ before stop hr

/-- An operand is accepted if the expressions inside of it are, which are shorter. -/
lemma accepts_operand (h : Operand (kinds ts) rest)
    (hunary : ∀ us rest, us.length < ts.length → Operand (kinds us) rest →
      Accepts (sub .unary) us rest)
    (hlowest : ∀ us rest, us.length < ts.length → Expression (kinds us) (.rightParen :: rest) →
      Accepts (sub .lowest) us (.rightParen :: rest)) :
    Accepts (operand sub) ts rest := by
  generalize hks : kinds ts = ks at h
  cases h with
  | negated inner =>
    obtain ⟨t, us, rfl, hk, rfl⟩ := kinds_eq_cons hks
    have hright := hunary us rest (Nat.lt_succ_self _) inner
    intro before stop hr
    rw [operand, bind_current, current_on_cons, hk]
    exact Accepts.advance_bind (hright.bind fun _ _ hvs => hvs ▸ accepts_pure _ _) before stop hr
  | enclosed inner =>
    obtain ⟨t, us, rfl, hk, rfl⟩ := kinds_eq_cons hks
    have hinner := hlowest us rest (Nat.lt_succ_self _) inner
    intro before stop hr
    rw [operand, bind_current, current_on_cons, hk]
    refine Accepts.advance_bind (hinner.bind fun e vs hvs => ?_) before stop hr
    obtain ⟨closer, ws, rfl, hparen, rfl⟩ := kinds_eq_cons hvs
    exact .expectClose_bind hparen (accepts_pure e ws)
  | atom hk =>
    obtain ⟨t, us, rfl, rfl, rfl⟩ := kinds_eq_cons hks
    exact accepts_operand_atom hk

/-- The reading succeeds and leaves a sequence of operations up to `rest`, of which the first
operator does not bind more strongly than the floor. -/
def AcceptsAbove (floor : Operator.Precedence) (x : Reading Cursor Expr) (ts : List Token)
    (rest : Kinds) : Prop :=
  ∀ before stop, Readable ts → ∃ a before' us, x (on before stop ts) = .ok a (on before' stop us) ∧
    Readable us ∧ us.length ≤ ts.length ∧ Operations (kinds us) rest ∧
    ∀ k r op, kinds us = k :: r → Operator.ofKind? k = some op → op.precedence.rank ≤ floor.rank

/-- Every operator binds tighter than the lowest precedence. -/
lemma rank_lowest_lt (op : Operator) : Operator.Precedence.lowest.rank < op.precedence.rank := by
  cases op <;> decide

/-- Every operator binds more strongly than the lowest floor, so nothing is left to read. -/
lemma AcceptsAbove.accepts {x : Reading Cursor Expr} (h : AcceptsAbove .lowest x ts rest) :
    Accepts x ts rest := by
  intro before stop hr
  obtain ⟨a, before', us, hx, hus, -, hops, hstop⟩ := h before stop hr
  refine ⟨a, before', us, hx, hus, ?_⟩
  generalize hks : kinds us = ks at hops
  cases hops with
  | nil => rfl
  | cons hop => exact absurd (hstop _ _ _ hks hop) (Nat.not_le.mpr (rank_lowest_lt _))

/-- Climbing reads the operators above the floor, if the operands to their right are read above the
operators. -/
lemma acceptsAbove_climb {bound : Nat}
    (hsub : ∀ floor us mid rest, us.length < bound → Operand (kinds us) mid → Operations mid rest →
      NoOperator rest → AcceptsAbove floor (sub floor) us rest)
    (n : Nat) (floor : Operator.Precedence) (left : Expr) (hn : ts.length < n)
    (hbound : ts.length ≤ bound) (hops : Operations (kinds ts) rest) (hrest : NoOperator rest) :
    AcceptsAbove floor (climb sub n floor left) ts rest := by
  induction n generalizing ts left with
  | zero => exact absurd hn (Nat.not_lt_zero _)
  | succ n ih =>
    intro before stop hr
    cases ts with
    | nil =>
      refine ⟨left, before, [], climb_of_none rfl, hr, Nat.le_refl _, hops, ?_⟩
      intro _ _ _ hks
      cases hks
    | cons t us =>
      have hcurrent : (Window.current (on before stop (t :: us))).kind = t.kind := by
        rw [current_on_cons]
      -- Climbing stops here if the first operator may be left.
      have hdone : (∀ op, Operator.ofKind? t.kind = some op → op.precedence.rank ≤ floor.rank) →
          ∀ k r op, kinds (t :: us) = k :: r → Operator.ofKind? k = some op →
            op.precedence.rank ≤ floor.rank := by
        intro hle k r op hks hop
        obtain ⟨rfl, -⟩ := List.cons.inj hks
        exact hle op hop
      cases hop : Operator.ofKind? t.kind with
      | none =>
        refine ⟨left, before, t :: us, climb_of_none (by rw [hcurrent, hop]), hr, Nat.le_refl _,
          hops, hdone fun op hsome => ?_⟩
        rw [hop] at hsome
        cases hsome
      | some op =>
        by_cases hfloor : op.precedence.rank ≤ floor.rank
        · refine ⟨left, before, t :: us, climb_of_le (by rw [hcurrent, hop]) hfloor, hr,
            Nat.le_refl _, hops, hdone fun op' hsome => ?_⟩
          rw [hop] at hsome
          cases hsome
          exact hfloor
        · rw [climb_of_lt (by rw [hcurrent, hop]) (Nat.not_le.mp hfloor), bind_advance_on]
          rw [kinds_cons] at hops
          generalize t.kind = k at hops hop
          cases hops with
          | nil =>
            rw [hrest _ _ rfl] at hop
            cases hop
          | cons _ right others =>
            obtain ⟨e, before', vs, hsubs, hvs, hlen, hmore, -⟩ := hsub op.precedence us _ rest
              (by rw [List.length_cons] at hbound; omega) right others hrest t.span stop hr.tail
            rw [List.length_cons] at hn hbound
            obtain ⟨a, before'', ws, hclimb, hws, hlen', hfin⟩ := ih
              (.binary op left e (left.span.merge e.span)) (by omega) (by omega) hmore
              before' stop hvs
            refine ⟨a, before'', ws, ?_, hws, by rw [List.length_cons]; omega, hfin⟩
            rw [bind_of_ok hsubs, hclimb]

/-- With enough levels an expression is read above any floor, and above the precedence of unary
minus just its first operand. -/
lemma accepts_expressionUpTo (n : Nat) (hn : ts.length < n) :
    (∀ floor mid rest, Operand (kinds ts) mid → Operations mid rest → NoOperator rest →
      AcceptsAbove floor (expressionUpTo n floor) ts rest) ∧
    ∀ mid, Operand (kinds ts) mid → Accepts (expressionUpTo n .unary) ts mid := by
  induction n generalizing ts with
  | zero => exact absurd hn (Nat.not_lt_zero _)
  | succ n ih =>
    have hoperand : ∀ mid, Operand (kinds ts) mid →
        Accepts (operand (expressionUpTo n)) ts mid := by
      intro mid hmid
      refine accepts_operand hmid (fun us rest hus h => (ih (by omega)).2 rest h) ?_
      rintro us rest hus ⟨first, others⟩
      exact ((ih (by omega)).1 .lowest _ _ first others (noOperator_cons rfl)).accepts
    refine ⟨fun floor mid rest hmid hops hrest => ?_, fun mid hmid => ?_⟩
    · intro before stop hr
      obtain ⟨left, before', us, hleft, hus, rfl⟩ := hoperand mid hmid before stop hr
      have hlen := hmid.length_lt
      rw [length_kinds, length_kinds] at hlen
      have hclimb : AcceptsAbove floor (climb (expressionUpTo n) (n + 1) floor left) us rest :=
        acceptsAbove_climb (fun floor us mid rest hus => (ih hus).1 floor mid rest) (n + 1) floor
          left (by omega) (by omega) hops hrest
      obtain ⟨e, before'', vs, hread, hvs, hlen', hfin⟩ := hclimb before' stop hus
      refine ⟨e, before'', vs, ?_, hvs, by omega, hfin⟩
      rw [expressionUpTo, bind_of_ok hleft, hread]
    · intro before stop hr
      obtain ⟨left, before', us, hleft, hus, rfl⟩ := hoperand mid hmid before stop hr
      refine ⟨left, before', us, ?_, hus, rfl⟩
      rw [expressionUpTo, bind_of_ok hleft, climb_unary]

/-- An expression is accepted if no operator follows it. -/
lemma accepts_expression (h : Expression (kinds ts) rest) (hrest : NoOperator rest) :
    Accepts expression ts rest := by
  obtain ⟨first, others⟩ := h
  have hread := (accepts_expressionUpTo (ts.length + 1) (Nat.lt_succ_self _)).1 .lowest _ _ first
    others hrest
  exact Accepts.sized (fun n => expressionUpTo n .lowest) hread.accepts

end Expressions

/-! ### Repetition -/

section Repetition

variable {α : Type} {item : Kinds → Kinds → Prop} {ts : List Token} {fin rest : Kinds}

/-- A repetition goes on as long as a property of the tokens lasts, and ends where they are `fin`:
each step takes something and keeps the property. -/
lemma accepts_repeatUpTo {step : Reading Cursor (Option α)} (going : Kinds → Prop)
    (hstep : ∀ before stop us, Readable us → going (kinds us) →
      (kinds us = fin ∧ step (on before stop us) = .ok none (on before stop us)) ∨
        ∃ a before' vs, step (on before stop us) = .ok (some a) (on before' stop vs) ∧
          Readable vs ∧ vs.length < us.length ∧ going (kinds vs))
    (n : Nat) (hn : ts.length < n) (hts : going (kinds ts)) :
    Accepts (repeatUpTo step n) ts fin := by
  induction n generalizing ts with
  | zero => exact absurd hn (Nat.not_lt_zero _)
  | succ n ih =>
    intro before stop hr
    rw [repeatUpTo]
    rcases hstep before stop ts hr hts with
      ⟨hfin, hnone⟩ | ⟨a, before', us, hsome, hus, hlt, hgoing⟩
    · refine ⟨[], before, ts, ?_, hr, hfin⟩
      rw [bind_of_ok hnone]
      rfl
    · obtain ⟨as, before'', vs, has, hvs, hfin⟩ := ih (by omega) hgoing before' stop hus
      refine ⟨a :: as, before'', vs, ?_, hvs, hfin⟩
      rw [bind_of_ok hsome]
      change (repeatUpTo step n >>= fun as => pure (a :: as)) _ = _
      rw [bind_of_ok has]
      rfl

/-- A repetition is accepted if each step takes something and keeps the rest of the promised form,
until the form has come to its end. -/
lemma accepts_many {step : Reading Cursor (Option α)} (going : Kinds → Prop)
    (hstep : ∀ before stop us, Readable us → going (kinds us) →
      (kinds us = fin ∧ step (on before stop us) = .ok none (on before stop us)) ∨
        ∃ a before' vs, step (on before stop us) = .ok (some a) (on before' stop vs) ∧
          Readable vs ∧ vs.length < us.length ∧ going (kinds vs))
    (hts : going (kinds ts)) : Accepts (many step) ts fin := by
  have hread := accepts_repeatUpTo going hstep (ts.length + 1) (Nat.lt_succ_self _) hts
  exact hread.sized (repeatUpTo step)

/-- The first item that is repeated is the first that is yielded. -/
lemma many_of_some {step : Reading Cursor (Option α)} {before stop : Span} {t : Token}
    {us : List Token}
    {a : α} {as : List α} {s : Cursor} (hr : Readable (t :: us))
    (hstep : step (on before stop (t :: us)) = .ok (some a) (on t.span stop us))
    (hmore : many step (on t.span stop us) = .ok as s) :
    many step (on before stop (t :: us)) = .ok (a :: as) s := by
  change repeatUpTo step (Window.size (on before stop (t :: us)) + 1) _ = _
  change repeatUpTo step (Window.size (on t.span stop us) + 1) _ = _ at hmore
  rw [size_on hr.tail] at hmore
  rw [size_on hr, List.length_cons, repeatUpTo, bind_of_ok hstep]
  change (repeatUpTo step (us.length + 1) >>= fun as => pure (a :: as)) _ = _
  rw [bind_of_ok hmore]
  rfl

/-- The step reads a token of the class, and yields nothing on `fin`. -/
structure TokenStep (p : Token.Kind → Prop) (fin : Kinds) (step : Reading Cursor (Option α)) :
    Prop where
  take : ∀ before stop t us, p t.kind →
    ∃ a, step (on before stop (t :: us)) = .ok (some a) (on t.span stop us)
  leave : ∀ before stop us, kinds us = fin → step (on before stop us) = .ok none (on before stop us)

/-- A repetition of single tokens is accepted. -/
lemma TokenStep.accepts {p : Token.Kind → Prop} {step : Reading Cursor (Option α)}
    (hstep : TokenStep p fin step)
    (h : Many (One p) (kinds ts) fin) : Accepts (many step) ts fin := by
  refine accepts_many (fun ks => Many (One p) ks fin) ?_ h
  intro before stop us hr hmany
  generalize hks : kinds us = ks at hmany
  cases hmany with
  | nil => exact .inl ⟨rfl, hstep.leave before stop us hks⟩
  | cons first others =>
    obtain ⟨hp⟩ := first
    obtain ⟨t, vs, rfl, rfl, rfl⟩ := kinds_eq_cons hks
    obtain ⟨a, ha⟩ := hstep.take before stop t vs hp
    exact .inr ⟨a, t.span, vs, ha, hr.tail, Nat.lt_succ_self _, others⟩

/-- The reading accepts items that are followed by no operator; an item is not empty and does not
start with a closing parenthesis. -/
structure AcceptsItems (item : Kinds → Kinds → Prop) (x : Reading Cursor α) : Prop where
  accepts : ∀ us mid, item (kinds us) mid → NoOperator mid → Accepts x us mid
  exists_head : ∀ {ks mid}, item ks mid → ∃ k r, ks = k :: r ∧ k ≠ .rightParen
  length_lt : ∀ {ks mid}, item ks mid → mid.length < ks.length

/-- A list with commas is accepted if its items are, and if there are more rounds than tokens. -/
lemma AcceptsItems.separatedUpTo {x : Reading Cursor α} (hx : AcceptsItems item x) (n : Nat)
    (hn : ts.length < n) (h : Separated item (kinds ts) (.rightParen :: rest)) :
    Accepts (separatedUpTo x n) ts (.rightParen :: rest) := by
  induction n generalizing ts with
  | zero => exact absurd hn (Nat.not_lt_zero _)
  | succ n ih =>
    intro before stop hr
    rw [Sheet.separatedUpTo, bind_check]
    -- An item is read where one starts.
    have hitem : ∀ {mid}, item (kinds ts) mid →
        (Window.current (on before stop ts)).kind ≠ .rightParen ∧
        Window.isAtEnd (on before stop ts) = false := by
      intro mid hmid
      obtain ⟨k, r, hks, hk⟩ := hx.exists_head hmid
      obtain ⟨t, us, rfl, rfl, rfl⟩ := kinds_eq_cons hks
      exact ⟨by rwa [current_on_cons], isAtEnd_on_cons hr⟩
    generalize hks : kinds ts = ks at h
    cases h with
    | nil =>
      obtain ⟨t, us, rfl, hk, hrest⟩ := kinds_eq_cons hks
      rw [current_on_cons, decide_eq_true hk]
      exact ⟨[], before, t :: us, rfl, hr, hks⟩
    | last only =>
      rw [← hks] at only
      obtain ⟨hparen, hend⟩ := hitem only
      rw [decide_eq_false hparen]
      obtain ⟨a, before', us, ha, hus, hmid⟩ :=
        hx.accepts ts _ only (noOperator_cons rfl) before stop hr
      obtain ⟨t, vs, rfl, hk, rfl⟩ := kinds_eq_cons hmid
      refine ⟨[a], before', t :: vs, ?_, hus, hmid⟩
      change (window >>= _) _ = _
      rw [bind_window, hend]
      change (x >>= _) _ = _
      rw [bind_of_ok ha, bind_of_ok (eat_on_of_ne (by rw [hk]; decide))]
      rfl
    | cons first others =>
      rw [← hks] at first
      obtain ⟨hparen, hend⟩ := hitem first
      have hlen := hx.length_lt first
      rw [length_kinds, List.length_cons] at hlen
      rw [decide_eq_false hparen]
      obtain ⟨a, before', us, ha, hus, hmid⟩ :=
        hx.accepts ts _ first (noOperator_cons rfl) before stop hr
      obtain ⟨t, vs, rfl, hk, rfl⟩ := kinds_eq_cons hmid
      rw [length_kinds] at hlen
      obtain ⟨as, before'', ws, has, hws, hfin⟩ := ih (by omega) others t.span stop hus.tail
      refine ⟨a :: as, before'', ws, ?_, hws, hfin⟩
      change (window >>= _) _ = _
      rw [bind_window, hend]
      change (x >>= _) _ = _
      rw [bind_of_ok ha, bind_of_ok (eat_on_of_eq hk)]
      change (Sheet.separatedUpTo x n >>= _) _ = _
      rw [bind_of_ok has]
      rfl

/-- A list in parentheses is accepted if its items are.  Where it is missing, no parenthesis may
follow. -/
lemma AcceptsItems.parenthesized {x : Reading Cursor α} (hx : AcceptsItems item x)
    (h : Parenthesized item (kinds ts) rest) (hrest : ∀ r, rest ≠ .leftParen :: r) :
    Accepts (parenthesized x) ts rest := by
  intro before stop hr
  rw [Sheet.parenthesized, bind_check]
  generalize hks : kinds ts = ks at h
  cases h with
  | absent =>
    subst hks
    have hne : (Window.current (on before stop ts)).kind ≠ .leftParen :=
      current_kind_ne (by decide) hrest
    rw [decide_eq_false hne]
    exact ⟨[], before, ts, rfl, hr, rfl⟩
  | present items =>
    obtain ⟨t, us, rfl, hk, rfl⟩ := kinds_eq_cons hks
    rw [current_on_cons, decide_eq_true hk]
    have hitems := hx.separatedUpTo (us.length + 1) (Nat.lt_succ_self _) items
    have hsized := hitems.sized (Sheet.separatedUpTo x)
    refine Accepts.advance_bind (hsized.bind fun as vs hvs => ?_) before stop hr
    obtain ⟨closer, ws, rfl, hparen, rfl⟩ := kinds_eq_cons hvs
    exact .expectClose_bind hparen (accepts_pure as ws)

end Repetition

/-! ### Parts of statements -/

section Parts

variable {t : Token} {ts us : List Token} {fin rest : Kinds}

/-- The end of a statement is accepted. -/
lemma accepts_endStatement (h : End (kinds ts) rest) : Accepts endStatement ts rest := by
  intro before stop hr
  rw [endStatement]
  generalize hks : kinds ts = ks at h
  cases h with
  | semicolon =>
    obtain ⟨t, us, rfl, hk, rfl⟩ := kinds_eq_cons hks
    rw [bind_of_ok (eat_on_of_eq hk)]
    exact ⟨(), t.span, us, rfl, hr.tail, rfl⟩
  | brace =>
    obtain ⟨t, us, rfl, hk, rfl⟩ := kinds_eq_cons hks
    rw [bind_of_ok (eat_on_of_ne (by rw [hk]; decide))]
    change ∃ a before' us', (check .rightBrace >>= _) _ = _ ∧ _
    rw [bind_check, current_on_cons, decide_eq_true hk]
    exact ⟨(), before, t :: us, rfl, hr, hks⟩
  | input =>
    obtain rfl := kinds_eq_nil hks
    exact ⟨(), before, [], rfl, hr, rfl⟩

/-- A statement ends at a semicolon, at a closing brace or at the end of the input. -/
lemma Form.End.current_kind (h : End (kinds us) rest) (before stop : Span) :
    (Window.current (on before stop us)).kind = .semicolon ∨
      (Window.current (on before stop us)).kind = .rightBrace ∨
      (Window.current (on before stop us)).kind = .eof := by
  generalize hks : kinds us = ks at h
  cases h with
  | semicolon =>
    obtain ⟨t, us, rfl, hk, rfl⟩ := kinds_eq_cons hks
    exact .inl (by rwa [current_on_cons])
  | brace =>
    obtain ⟨t, us, rfl, hk, rfl⟩ := kinds_eq_cons hks
    exact .inr (.inl (by rwa [current_on_cons]))
  | input =>
    obtain rfl := kinds_eq_nil hks
    exact .inr (.inr rfl)

/-- Flags are taken one by one until the statement ends. -/
lemma tokenStep_flag? (h : End fin rest) : TokenStep IsFlag fin flag? where
  take before stop t us hk := by
    rw [flag?]
    rcases hk with hk | hk
    · rw [bind_of_ok (eat_on_of_eq hk)]
      exact ⟨.globally, rfl⟩
    · rw [bind_of_ok (eat_on_of_ne (by rw [hk]; decide))]
      change ∃ a, (eat _ >>= _) _ = _
      rw [bind_of_ok (eat_on_of_eq hk)]
      exact ⟨.byDefault, rfl⟩
  leave before stop us hus := by
    subst hus
    have hne : ∀ w, (Window.current (on before stop us)).kind ≠ .keyword w := by
      intro w hw
      rcases h.current_kind before stop with hk | hk | hk <;> rw [hk] at hw <;> cases hw
    rw [flag?, bind_of_ok (eat_of_ne (hne _))]
    change (eat _ >>= _) _ = _
    rw [bind_of_ok (eat_of_ne (hne _))]
    rfl

/-- Tokens of a selector are taken one by one until the block starts. -/
lemma tokenStep_headerToken? : TokenStep IsHeaderPart (.leftBrace :: rest) headerToken? where
  take before stop t us hk := by
    have hpart : (t.kind.isSelector || decide (t.kind = .comma)) = true := by
      rwa [Bool.or_eq_true, decide_eq_true_eq]
    have hbrace : t.kind ≠ .leftBrace := by
      intro hbrace
      rw [hbrace] at hpart
      cases hpart
    rw [headerToken?, bind_current, current_on_cons]
    rw [if_neg hbrace, if_pos hpart, bind_advance_on]
    exact ⟨t, rfl⟩
  leave before stop us hus := by
    obtain ⟨t, us, rfl, hk, -⟩ := kinds_eq_cons hus
    rw [headerToken?, bind_current, current_on_cons]
    rw [if_pos hk]
    rfl

/-- Tokens of a target are taken one by one until the statement ends. -/
lemma tokenStep_targetToken? (h : End fin rest) : TokenStep IsTargetPart fin targetToken? where
  take before stop t us hk := by
    have hpart : (t.kind.isSelector || decide (t.kind = .string)) = true := by
      rwa [Bool.or_eq_true, decide_eq_true_eq]
    rw [targetToken?, bind_current, current_on_cons]
    rw [if_pos hpart, bind_advance_on]
    exact ⟨t, rfl⟩
  leave before stop us hus := by
    subst hus
    rw [targetToken?, bind_current]
    rcases h.current_kind before stop with hk | hk | hk <;> rw [hk] <;> rfl

/-- Where an operand starts, a value is an expression. -/
lemma value?_of_startsOperand {σ : Type} [Window σ] {s : σ}
    (h : StartsOperand (Window.current s).kind) :
    value? s = (do return some (← expression) : Reading σ (Option Expr)) s := by
  rw [value?, bind_current]
  cases hk : (Window.current s).kind with
  | semicolon | rightBrace | eof => rw [hk] at h; exact absurd h (by decide)
  | keyword w => rw [hk] at h; exact absurd h (by cases w <;> decide)
  | _ => rfl

/-- A list of values is accepted if nothing that follows starts another one. -/
lemma accepts_values (h : Many Expression (kinds ts) fin) (hfin : NoOperator fin)
    (hleave : ∀ before stop us, kinds us = fin →
      value? (on before stop us) = .ok none (on before stop us)) :
    Accepts (many value?) ts fin := by
  refine accepts_many (fun ks => Many Expression ks fin) ?_ h
  intro before stop us hr hmany
  generalize hks : kinds us = ks at hmany
  cases hmany with
  | nil => exact .inl ⟨rfl, hleave before stop us hks⟩
  | cons first others =>
    obtain ⟨mid, hvalue, hmid, hmore⟩ := exists_joined first others hfin
    have hlen := hvalue.length_lt
    obtain ⟨k, r, hkr, hstart⟩ := hvalue.exists_head
    rw [← hks] at hvalue hlen hkr
    obtain ⟨e, before', vs, he, hvs, rfl⟩ := accepts_expression hvalue hmid before stop hr
    obtain ⟨t, ws, rfl, rfl, rfl⟩ := kinds_eq_cons hkr
    refine .inr ⟨e, before', vs, ?_, hvs, by simpa using hlen, hmore⟩
    rw [value?_of_startsOperand (by rwa [current_on_cons]), bind_of_ok he]
    rfl

/-- The name of a mixin is accepted. -/
lemma accepts_mixinName (hk : IsName t.kind) : Accepts mixinName (t :: us) (kinds us) := by
  intro before stop hr
  rw [mixinName, bind_current, current_on_cons]
  rcases hk with hk | hk | hk | hk
  all_goals
    rw [hk]
    exact Accepts.advance_bind (accepts_pure t.text us) before stop hr

/-- Parameters are accepted. -/
lemma acceptsItems_parameter : AcceptsItems (One (· = .variableName)) parameter where
  accepts us mid h _ := by
    generalize hks : kinds us = ks at h
    obtain ⟨hk⟩ := h
    obtain ⟨t, vs, rfl, ht, rfl⟩ := kinds_eq_cons hks
    exact .expect_bind (ht.trans hk) (accepts_pure _ vs)
  exists_head h := by
    obtain ⟨rfl⟩ := h
    exact ⟨_, _, rfl, by decide⟩
  length_lt := One.length_lt

/-- Arguments are accepted. -/
lemma acceptsItems_expression : AcceptsItems Expression expression where
  accepts _ _ := accepts_expression
  exists_head h := by
    obtain ⟨k, r, rfl, hk⟩ := h.exists_head
    refine ⟨k, r, rfl, ?_⟩
    rintro rfl
    exact absurd hk (by decide)
  length_lt := Expression.length_lt

end Parts

/-! ### Statements -/

section Statements

variable {inner : Span → Reading Cursor (List Stmt)} {t : Token} {ts us : List Token} {rest : Kinds}

/-- Statements between braces are read, if there are fewer tokens than the bound. -/
def AcceptsBodies (bound : Nat) (inner : Span → Reading Cursor (List Stmt)) : Prop :=
  ∀ opened us rest, us.length < bound → Statements (kinds us) (.rightBrace :: rest) →
    Accepts (inner opened) us rest

/-- An assignment is accepted. -/
lemma accepts_assignment {flags fin : Kinds} (hcolon : t.kind = .colon) {name : Token}
    (value : Expression (kinds us) flags) (flagged : Many (One IsFlag) flags fin)
    (ends : End fin rest) : Accepts assignment (name :: t :: us) rest := by
  have hflags : NoOperator flags := by
    cases flagged with
    | nil => exact ends.noOperator
    | cons first _ =>
      obtain ⟨hk⟩ := first
      rcases hk with rfl | rfl <;> exact noOperator_cons rfl
  refine .advance_bind (.expect_bind hcolon ((accepts_expression value hflags).bind ?_))
  rintro e vs rfl
  refine ((tokenStep_flag? ends).accepts flagged).bind ?_
  rintro flags ws rfl
  exact .lastSpan_bind fun _ => (accepts_endStatement ends).bind_pure

/-- A declaration is accepted. -/
lemma accepts_declaration {values mark fin : Kinds} (hcolon : t.kind = .colon) {name : Token}
    (first : Expression (kinds us) values) (others : Many Expression values mark)
    (important : Optional (.keyword .bangImportant) mark fin) (ends : End fin rest) :
    Accepts declaration (name :: t :: us) rest := by
  have hmark : NoOperator mark := by
    cases important with
    | absent => exact ends.noOperator
    | present => exact noOperator_cons rfl
  have hleave : ∀ before stop us, kinds us = mark →
      value? (on before stop us) = .ok none (on before stop us) := by
    rintro before stop us rfl
    rw [value?, bind_current]
    generalize hks : kinds us = ks at important
    cases important with
    | absent =>
      subst hks
      rcases ends.current_kind before stop with hk | hk | hk <;> rw [hk] <;> rfl
    | present =>
      obtain ⟨t, us, rfl, hk, -⟩ := kinds_eq_cons hks
      rw [current_on_cons, hk]
      rfl
  -- the grammar may cut a list of values where reading goes on with an operator, so the list is cut
  -- anew after the longest first value
  obtain ⟨mid, hfirst, hmid, hmore⟩ := exists_joined first others hmark
  refine .advance_bind (.expect_bind hcolon ((accepts_expression hfirst hmid).bind ?_))
  rintro e vs rfl
  refine (accepts_values hmore hmark hleave).bind ?_
  rintro es ws rfl
  have heat : Accepts (eat (.keyword .bangImportant)) ws fin := by
    intro before stop hr
    generalize hks : kinds ws = ks at important
    cases important with
    | absent =>
      subst hks
      refine ⟨false, before, ws, eat_of_ne ?_, hr, rfl⟩
      rcases ends.current_kind before stop with hk | hk | hk <;> rw [hk] <;> decide
    | present =>
      obtain ⟨t, xs, rfl, hk, rfl⟩ := kinds_eq_cons hks
      exact ⟨true, t.span, xs, eat_on_of_eq hk, hr.tail, rfl⟩
  refine heat.bind ?_
  rintro important xs rfl
  exact .lastSpan_bind fun _ => (accepts_endStatement ends).bind_pure

/-- An import is accepted. -/
lemma accepts_importation {keyword : Token} (hpath : t.kind = .string)
    (ends : End (kinds us) rest) : Accepts importation (keyword :: t :: us) rest :=
  .advance_bind (.expect_bind hpath (accepts_endStatement ends).bind_pure)

/-- An expansion of a mixin is accepted. -/
lemma accepts_expansion {keyword : Token} {fin : Kinds} (hname : IsName t.kind)
    (args : Parenthesized Expression (kinds us) fin) (ends : End fin rest) :
    Accepts expansion (keyword :: t :: us) rest := by
  refine .advance_bind ((accepts_mixinName hname).bind ?_)
  intro name vs hvs
  rw [← hvs] at args
  refine (acceptsItems_expression.parenthesized args ?_).bind ?_
  · rintro r rfl
    cases ends
  · rintro es ws rfl
    exact .lastSpan_bind fun _ => (accepts_endStatement ends).bind_pure

/-- An extension is accepted. -/
lemma accepts_extension {keyword : Token} {fin : Kinds} (htarget : IsTargetPart t.kind)
    (others : Many (One IsTargetPart) (kinds us) fin) (ends : End fin rest) :
    Accepts extension (keyword :: t :: us) rest := by
  refine .advance_bind fun before stop hr => ?_
  -- The first token of the target is read, so the target is not empty.
  obtain ⟨first, hfirst⟩ := (tokenStep_targetToken? ends).take before stop t us htarget
  obtain ⟨more, before', vs, hmore, hvs, rfl⟩ :=
    (tokenStep_targetToken? ends).accepts others t.span stop hr.tail
  rw [bind_of_ok (many_of_some hr hfirst hmore)]
  change ∃ a before'' us, (lastSpan >>= _) _ = _ ∧ _
  exact Accepts.lastSpan_bind (fun _ => (accepts_endStatement ends).bind_pure) before' stop hvs

/-- A block is accepted if the statements in it are. -/
lemma accepts_block {bound : Nat} (hinner : AcceptsBodies bound inner)
    (h : Form.Block (kinds ts) rest) (hbound : ts.length ≤ bound) :
    Accepts (block inner) ts rest := by
  generalize hks : kinds ts = ks at h
  obtain ⟨statements⟩ := h
  obtain ⟨t, us, rfl, hk, rfl⟩ := kinds_eq_cons hks
  refine .expect_bind hk ((hinner t.span us rest hbound statements).bind ?_)
  rintro body vs rfl
  exact .lastSpan_bind fun _ => accepts_pure _ vs

/-- A definition of a mixin is accepted if the statements of its body are. -/
lemma accepts_mixinDefinition {keyword : Token} {body : Kinds} {bound : Nat}
    (hinner : AcceptsBodies bound inner) (hname : IsName t.kind)
    (params : Parenthesized (One (· = .variableName)) (kinds us) body)
    (hblock : Form.Block body rest) (hbound : us.length ≤ bound) :
    Accepts (mixinDefinition inner) (keyword :: t :: us) rest := by
  have hlen := params.length_le One.length_lt
  refine .advance_bind ((accepts_mixinName hname).bind ?_)
  intro name vs hvs
  rw [← hvs] at params
  refine (acceptsItems_parameter.parenthesized params ?_).bind ?_
  · rintro r rfl
    cases hblock
  · rintro idents ws rfl
    rw [length_kinds, length_kinds] at hlen
    exact (accepts_block hinner hblock (Nat.le_trans hlen hbound)).bind_pure

/-- A ruleset is accepted if the statements of its body are. -/
lemma accepts_ruleset {body : Kinds} {bound : Nat} (hinner : AcceptsBodies bound inner)
    (hk : t.kind.isSimpleSelector = true) (header : Many (One IsHeaderPart) (kinds us) body)
    (hblock : Form.Block body rest) (hbound : us.length ≤ bound) :
    Accepts (ruleset inner) (t :: us) rest := by
  have hlen := header.length_le One.length_lt
  have hpart : IsHeaderPart t.kind := by
    refine .inl ?_
    cases hkind : t.kind <;> rw [hkind] at hk <;> first | rfl | cases hk
  obtain ⟨statements⟩ := hblock
  have hheader : Accepts (many headerToken?) (t :: us) _ :=
    tokenStep_headerToken?.accepts (.cons (.mk hpart) header)
  intro before stop hr
  rw [ruleset, bind_current]
  refine hheader.bind ?_ before stop hr
  rintro tokens vs hvs
  rw [← hvs, length_kinds, length_kinds] at hlen
  have hbody : Form.Block (kinds vs) rest := by
    rw [hvs]
    exact ⟨statements⟩
  refine (accepts_block hinner hbody (Nat.le_trans hlen hbound)).bind ?_
  rintro b ws rfl
  exact .lastSpan_bind fun _ => accepts_pure _ ws

/-- A condition with its branches is accepted if the statements of all branches are, and if more
branches may be read than there are tokens. -/
lemma accepts_conditionalUpTo {bound : Nat} (hinner : AcceptsBodies bound inner) (n : Nat)
    (hn : ts.length < n) (h : Conditional (kinds ts) rest)
    (hrest : ∀ r, rest ≠ .keyword .atElse :: r) (hbound : ts.length ≤ bound) :
    Accepts (conditionalUpTo inner n) ts rest := by
  induction n generalizing ts with
  | zero => exact absurd hn (Nat.not_lt_zero _)
  | succ n ih =>
    generalize hks : kinds ts = ks at h
    -- The condition and its block are read alike in all forms; what follows them differs.
    have hyes : ∀ {t us body mid}, ts = t :: us → Expression (kinds us) body →
        Form.Block body mid → (∀ ws, kinds ws = mid → ws.length ≤ us.length →
          Accepts (alternative inner (conditionalUpTo inner n)) ws rest) →
        Accepts (conditionalUpTo inner (n + 1)) ts rest := by
      rintro t us body mid rfl condition yes hno
      have hcondition := condition.length_lt
      have hlen := yes.length_le
      have hbody : NoOperator body := by
        obtain ⟨_⟩ := yes
        exact noOperator_cons rfl
      rw [List.length_cons] at hbound
      refine .advance_bind ((accepts_expression condition hbody).bind ?_)
      rintro e vs rfl
      rw [length_kinds, length_kinds] at hcondition
      refine (accepts_block hinner yes (by omega)).bind ?_
      rintro b ws rfl
      rw [length_kinds, length_kinds] at hlen
      refine (hno ws rfl (by omega)).bind ?_
      rintro other xs rfl
      exact .lastSpan_bind fun _ => accepts_pure _ xs
    cases h with
    | plain condition yes =>
      obtain ⟨t, us, rfl, hk, rfl⟩ := kinds_eq_cons hks
      refine hyes rfl condition yes ?_
      rintro ws rfl - before stop hr
      have helse : (Window.current (on before stop ws)).kind ≠ .keyword .atElse :=
        current_kind_ne (by decide) hrest
      rw [alternative, bind_of_ok (eat_of_ne helse)]
      exact ⟨none, before, ws, rfl, hr, rfl⟩
    | otherwise condition yes no =>
      obtain ⟨t, us, rfl, hk, rfl⟩ := kinds_eq_cons hks
      refine hyes rfl condition yes ?_
      intro ws hws hlen before stop hr
      obtain ⟨e, xs, rfl, helse, rfl⟩ := kinds_eq_cons hws
      rw [List.length_cons] at hlen hbound
      have hif : (Window.current (on e.span stop xs)).kind ≠ .keyword .atIf := by
        generalize hxs : kinds xs = ks at no
        obtain ⟨_⟩ := no
        obtain ⟨brace, ys, rfl, hbrace, -⟩ := kinds_eq_cons hxs
        rw [current_on_cons, hbrace]
        decide
      rw [alternative, bind_of_ok (eat_on_of_eq helse)]
      change ∃ a before' us', (check _ >>= _) _ = _ ∧ _
      rw [bind_check, decide_eq_false hif]
      exact (accepts_block hinner no (by omega)).bind_pure e.span stop hr.tail
    | chained condition yes next =>
      obtain ⟨t, us, rfl, hk, rfl⟩ := kinds_eq_cons hks
      refine hyes rfl condition yes ?_
      intro ws hws hlen before stop hr
      obtain ⟨e, xs, rfl, helse, rfl⟩ := kinds_eq_cons hws
      rw [List.length_cons] at hlen hbound hn
      have hif : (Window.current (on e.span stop xs)).kind = .keyword .atIf := by
        generalize hxs : kinds xs = ks at next
        cases next <;>
        · obtain ⟨keyword, ys, rfl, hkeyword, -⟩ := kinds_eq_cons hxs
          rwa [current_on_cons]
      rw [alternative, bind_of_ok (eat_on_of_eq helse)]
      change ∃ a before' us', (check _ >>= _) _ = _ ∧ _
      rw [bind_check, decide_eq_true hif]
      exact (ih (by omega) next (by omega)).bind_pure e.span stop hr.tail

/-- An expression that stands as a statement is accepted. -/
lemma accepts_expressionStatement {fin : Kinds} (value : Expression (kinds ts) fin)
    (ends : End fin rest) : Accepts expressionStatement ts rest := by
  refine (accepts_expression value ends.noOperator).bind ?_
  rintro e us rfl
  exact (accepts_endStatement ends).bind_pure

/-! Statements are told apart by their first two tokens. -/

/-- What starts like an operand and is no selector, no assignment, is read as an expression. -/
lemma statement_of_ahead {s : Cursor} (hstart : StartsOperand (Window.current s).kind)
    (hk : (Window.current s).kind.isSimpleSelector = false)
    (hahead : (Window.current s).kind = .variableName → (Window.ahead s).kind ≠ .colon) :
    statement inner s = (some <$> expressionStatement) s := by
  rw [statement, bind_window]
  cases hkind : (Window.current s).kind with
  | variableName =>
    dsimp only
    rw [if_neg (hahead hkind)]
  | keyword w =>
    rw [hkind] at hstart
    exact absurd hstart (by cases w <;> decide)
  | semicolon | property =>
    rw [hkind] at hstart
    exact absurd hstart (by decide)
  | _ =>
    rw [hkind] at hk
    first | rfl | cases hk

/-- A statement is accepted if the statements inside of it are. -/
lemma accepts_statement (hinner : AcceptsBodies ts.length inner) (h : Statement (kinds ts) rest)
    (hrest : ∀ r, rest ≠ .keyword .atElse :: r) : Accepts (statement inner) ts rest := by
  -- it suffices that the dispatch on the first two kinds picks the reading of the right construct
  have hread : ∀ {x : Reading Cursor Stmt}, Accepts x ts rest →
      (∀ before stop, Readable ts → statement inner (on before stop ts) =
        (some <$> x) (on before stop ts)) → Accepts (statement inner) ts rest :=
    fun hx heq => (hx.map some).of_eq heq
  generalize hks : kinds ts = ks at h
  cases h with
  | assignment value flagged ends =>
    obtain ⟨name, us, rfl, hname, hus⟩ := kinds_eq_cons hks
    obtain ⟨colon, vs, rfl, hcolon, rfl⟩ := kinds_eq_cons hus
    refine hread (accepts_assignment hcolon value flagged ends) fun before stop _ => ?_
    rw [statement, bind_window, current_on_cons, hname, ahead_on_cons, hcolon]
    rfl
  | declaration first others important ends =>
    obtain ⟨name, us, rfl, hname, hus⟩ := kinds_eq_cons hks
    obtain ⟨colon, vs, rfl, hcolon, rfl⟩ := kinds_eq_cons hus
    refine hread (accepts_declaration hcolon first others important ends) fun before stop _ => ?_
    rw [statement, bind_window, current_on_cons, hname, ahead_on_cons, hcolon]
    rfl
  | importation ends =>
    obtain ⟨keyword, us, rfl, hkeyword, hus⟩ := kinds_eq_cons hks
    obtain ⟨path, vs, rfl, hpath, rfl⟩ := kinds_eq_cons hus
    refine hread (accepts_importation hpath ends) fun before stop _ => ?_
    rw [statement, bind_window, current_on_cons, hkeyword]
  | mixin hk params block =>
    obtain ⟨keyword, us, rfl, hkeyword, hus⟩ := kinds_eq_cons hks
    obtain ⟨name, vs, rfl, rfl, rfl⟩ := kinds_eq_cons hus
    refine hread (accepts_mixinDefinition hinner hk params block (by simp; omega))
      fun before stop _ => ?_
    rw [statement, bind_window, current_on_cons, hkeyword]
  | expansion hk args ends =>
    obtain ⟨keyword, us, rfl, hkeyword, hus⟩ := kinds_eq_cons hks
    obtain ⟨name, vs, rfl, rfl, rfl⟩ := kinds_eq_cons hus
    refine hread (accepts_expansion hk args ends) fun before stop _ => ?_
    rw [statement, bind_window, current_on_cons, hkeyword]
  | extension hk others ends =>
    obtain ⟨keyword, us, rfl, hkeyword, hus⟩ := kinds_eq_cons hks
    obtain ⟨target, vs, rfl, rfl, rfl⟩ := kinds_eq_cons hus
    refine hread (accepts_extension hk others ends) fun before stop _ => ?_
    rw [statement, bind_window, current_on_cons, hkeyword]
  | conditional cond =>
    subst hks
    have hcond := accepts_conditionalUpTo hinner (ts.length + 1) (Nat.lt_succ_self _) cond hrest
      (Nat.le_refl _)
    refine hread (hcond.sized (conditionalUpTo inner)) fun before stop _ => ?_
    generalize hks : kinds ts = ks at cond
    cases cond <;>
    · obtain ⟨keyword, us, rfl, hkeyword, -⟩ := kinds_eq_cons hks
      rw [statement, bind_window, current_on_cons, hkeyword]
      rfl
  | ruleset hk header block =>
    obtain ⟨first, us, rfl, rfl, rfl⟩ := kinds_eq_cons hks
    refine hread (accepts_ruleset hinner hk header block (by simp)) fun before stop _ => ?_
    rw [statement, bind_window, current_on_cons]
    cases hkind : first.kind <;> rw [hkind] at hk <;> first | rfl | cases hk
  | expression hk value ends =>
    have hstart := value.startsOperand
    rw [← hks] at value
    refine hread (accepts_expressionStatement value ends) fun before stop _ => ?_
    obtain ⟨first, us, rfl, rfl, rfl⟩ := kinds_eq_cons hks
    -- a variable in front of a colon would be an assignment, and no expression has a colon there
    refine statement_of_ahead (by rwa [current_on_cons]) (by rwa [current_on_cons]) fun hvar => ?_
    cases us with
    | nil =>
      rw [ahead_on_singleton]
      intro hcolon
      cases hcolon
    | cons second us =>
      rw [current_on_cons] at hvar
      rw [kinds_cons, kinds_cons, hvar] at value
      exact value.ne_colon ends

/-- A token that closes nothing goes on with the statements. -/
lemma isOver_on_cons {enclosing : Option Span} {before stop : Span} (hr : Readable (t :: us))
    (hk : t.kind ≠ .rightBrace) :
    isOver enclosing (on before stop (t :: us)) = .ok false (on before stop (t :: us)) := by
  cases enclosing with
  | none =>
    rw [isOver, bind_window, isAtEnd_on_cons hr]
    rfl
  | some opened =>
    rw [isOver, bind_of_ok (eat_on_of_ne hk)]
    change (window >>= _) _ = _
    rw [bind_window, isAtEnd_on_cons hr]
    rfl

/-- What statements are followed by: nothing, or the brace that closes them. -/
def Form.closing : Option Span → Kinds → Kinds
  | none, _ => []
  | some _, rest => .rightBrace :: rest

/-- Statements up to where they are over: at the end of the input, or behind the brace that closes
them. -/
def Form.Enclosed : Option Span → Kinds → Kinds → Prop
  | none, ks, rest => rest = [] ∧ Statements ks []
  | some _, ks, rest => Statements ks (.rightBrace :: rest)

/-- Enclosed statements are statements up to where they are closed. -/
lemma Form.Enclosed.statements {enclosing : Option Span} {ks rest : Kinds}
    (h : Enclosed enclosing ks rest) : Statements ks (closing enclosing rest) := by
  cases enclosing with
  | none => exact h.2
  | some _ => exact h

/-- The rest of enclosed statements is enclosed alike. -/
lemma Form.Enclosed.of_statements {enclosing : Option Span} {ks mid rest : Kinds}
    (h : Enclosed enclosing ks rest) (hmid : Statements mid (closing enclosing rest)) :
    Enclosed enclosing mid rest := by
  cases enclosing with
  | none => exact ⟨h.1, hmid⟩
  | some _ => exact hmid

/-- Where enclosed statements are closed, reading them is over. -/
lemma isOver_of_closing {enclosing : Option Span} {before stop : Span} {ks : Kinds}
    (h : Enclosed enclosing ks rest) (hts : kinds ts = closing enclosing rest)
    (hr : Readable ts) : ∃ before' us, isOver enclosing (on before stop ts) =
      .ok true (on before' stop us) ∧ Readable us ∧ kinds us = rest := by
  cases enclosing with
  | none =>
    obtain rfl := kinds_eq_nil hts
    exact ⟨before, [], rfl, hr, h.1.symm⟩
  | some opened =>
    obtain ⟨t, us, rfl, hk, rfl⟩ := kinds_eq_cons hts
    refine ⟨t.span, us, ?_, hr.tail, rfl⟩
    rw [isOver, bind_of_ok (eat_on_of_eq hk)]
    rfl

end Statements

/-- With enough levels statements are read up to where they are over. -/
lemma accepts_statementsUpTo {ts : List Token} {rest : Kinds} (n : Nat) (enclosing : Option Span)
    (hn : ts.length < n) (h : Enclosed enclosing (kinds ts) rest) :
    Accepts (statementsUpTo n enclosing) ts rest := by
  induction n generalizing ts enclosing rest with
  | zero => exact absurd hn (Nat.not_lt_zero _)
  | succ n ih =>
    intro before stop hr
    rw [statementsUpTo]
    have hclosing : ∀ r, closing enclosing rest ≠ .keyword .atElse :: r := by
      intro r hr
      cases enclosing <;> cases hr
    -- A first statement or semicolon is followed by others.
    have hcons : ∀ {t us mid}, ts = t :: us → t.kind ≠ .rightBrace →
        Accepts (statement fun opened => statementsUpTo n (some opened)) ts mid →
        mid.length < ts.length → Statements mid (closing enclosing rest) →
        ∃ a before' us, (isOver enclosing >>= fun ended => if ended then return [] else do
          let first ← statement fun opened => statementsUpTo n (some opened)
          let others ← statementsUpTo n enclosing
          return first.toList ++ others : Reading Cursor (List Stmt)) (on before stop ts) =
            .ok a (on before' stop us) ∧ Readable us ∧ kinds us = rest := by
      rintro t us mid rfl hbrace hfirst hlen hmid
      rw [bind_of_ok (isOver_on_cons hr hbrace)]
      refine hfirst.bind ?_ before stop hr
      rintro first vs rfl
      rw [length_kinds] at hlen
      exact (ih enclosing (by omega) (h.of_statements hmid)).bind_pure
    have hstatements := h.statements
    generalize hks : kinds ts = ks at hstatements
    cases hstatements with
    | nil =>
      obtain ⟨before', us, hended, hus, hrest⟩ := isOver_of_closing h hks hr
      refine ⟨[], before', us, ?_, hus, hrest⟩
      rw [bind_of_ok hended]
      rfl
    | semicolon others =>
      obtain ⟨t, us, rfl, hk, rfl⟩ := kinds_eq_cons hks
      refine hcons rfl (by rw [hk]; decide) ?_ (by simp) others
      intro before stop hr
      rw [statement, bind_window, current_on_cons, hk]
      exact Accepts.advance_bind (accepts_pure none us) before stop hr
    | cons first others =>
      obtain ⟨k, r, hkr, hbrace, -⟩ := first.exists_head
      have hlen := first.length_lt
      rw [← hks] at first hkr hlen
      rw [length_kinds] at hlen
      obtain ⟨t, us, rfl, rfl, -⟩ := kinds_eq_cons hkr
      have hinner : AcceptsBodies (t :: us).length fun opened => statementsUpTo n (some opened) :=
        fun opened vs rest hvs hbody => ih (some opened) (by omega) hbody
      exact hcons rfl hbrace (accepts_statement hinner first (others.ne_else hclosing)) hlen others

end StyleSheet.Sheet

import StyleSheet.Proofs.Grammar.Completeness
import StyleSheet.Proofs.Grammar.Lockstep
import StyleSheet.Proofs.Grammar.Steps

/-!
# Expressions and their renderings

A rendering of an expression writes it as tokens, with enough parentheses: around an operation to
the left of an operator that binds more strongly, around one to the right of an operator that binds
as strongly or more so, and around one under a minus sign.  There may be any number of others.
Reading a rendering gives the expression back, up to spans (`expression_of_rendering`).

Precedence climbing reads the tokens of a left operand while it has not yet seen the operator behind
it.  So the invariant says how far the reading has come at the end of a rendering, and not what its
result is: it is then climbing, with the expression as what it has read so far, and it goes on with
whatever follows (`climbs_of_rendering`).
-/

namespace StyleSheet.Sheet

open Reading
open Window (Yields)

/-- Tokens of a window on a list are read one by one. -/
lemma Cursor.yields_on_append (before stop : Span) (ts us : List Token) :
    ∃ before', Window.Yields (Cursor.on before stop (ts ++ us)) ts (Cursor.on before' stop us) := by
  induction ts generalizing before with
  | nil => exact ⟨before, rfl⟩
  | cons t ts ih =>
    obtain ⟨before', hyields⟩ := ih t.span
    exact ⟨before', Cursor.current_on_cons, _, Cursor.advance_on_cons, hyields⟩

/-! ### Renderings -/

/-- The expressions of one token. -/
inductive Leaf : Expr → Token → Prop
  | var {t : Token} {span : Span} (hk : t.kind = .variableName) : Leaf (.var t.text span) t
  | number {t : Token} {x : Float} {unit : Option String} {span : Span} (hk : t.kind = .number)
    (hx : splitNumber? t.text = some (x, unit)) : Leaf (.number x unit span) t
  | text {t : Token} {span : Span} (hk : t.kind = .string) : Leaf (.text t.text span) t
  | color {t : Token} {span : Span} (hk : t.kind = .color) : Leaf (.color t.text span) t
  | litTrue {t : Token} {span : Span} (hk : t.kind = .litTrue) : Leaf (.bool true span) t
  | litFalse {t : Token} {span : Span} (hk : t.kind = .litFalse) : Leaf (.bool false span) t
  | selector {t : Token} {span : Span} (hk : t.kind.isSelector = true) :
    Leaf (.selector ⟨t.kind, t.text, span⟩) t

/-- The tokens render the expression.  The operator is the one that stands outside of all
parentheses and is applied last, if there is one. -/
inductive Rendering : Option Operator → Expr → List Token → Prop
  | leaf {e : Expr} {t : Token} (h : Leaf e t) : Rendering none e [t]
  | enclosed {top : Option Operator} {e : Expr} {ts : List Token} {opener closer : Token}
    (hopener : opener.kind = .leftParen) (hcloser : closer.kind = .rightParen)
    (inner : Rendering top e ts) : Rendering none e (opener :: (ts ++ [closer]))
  | negate {e : Expr} {ts : List Token} {sign : Token} {span : Span} (hsign : sign.kind = .minus)
    (operand : Rendering none e ts) : Rendering none (.negate e span) (sign :: ts)
  | binary {op : Operator} {topLeft topRight : Option Operator} {left right : Expr}
    {ts us : List Token} {sign : Token} {span : Span}
    (hsign : Operator.ofKind? sign.kind = some op)
    (hleft : Rendering topLeft left ts)
    (hbelow : ∀ inner ∈ topLeft, op.precedence.rank ≤ inner.precedence.rank)
    (hright : Rendering topRight right us)
    (habove : ∀ inner ∈ topRight, op.precedence.rank < inner.precedence.rank) :
    Rendering (some op) (.binary op left right span) (ts ++ sign :: us)

/-- An atom is not the end of the input. -/
lemma Leaf.kind_ne_eof {e : Expr} {t : Token} (h : Leaf e t) : t.kind ≠ .eof := by
  intro heof
  cases h with
  | var hk | text hk | color hk | litTrue hk | litFalse hk => cases hk.symm.trans heof
  | number hk => cases hk.symm.trans heof
  | selector hk =>
    rw [heof] at hk
    cases hk

/-- An operator is not the end of the input. -/
lemma ne_eof_of_ofKind? {k : Token.Kind} {op : Operator} (h : Operator.ofKind? k = some op) :
    k ≠ .eof := by
  rintro rfl
  cases h

namespace Rendering

variable {top : Option Operator} {e : Expr} {ts : List Token}

/-- The end of the input is not part of a rendering. -/
lemma kind_ne_eof (h : Rendering top e ts) : ∀ t ∈ ts, t.kind ≠ .eof := by
  induction h with
  | leaf h => exact List.forall_mem_singleton.mpr h.kind_ne_eof
  | enclosed hopener hcloser inner ih =>
    refine List.forall_mem_cons.mpr ⟨by rw [hopener]; decide, ?_⟩
    refine List.forall_mem_append.mpr ⟨ih, List.forall_mem_singleton.mpr ?_⟩
    rw [hcloser]
    decide
  | negate hsign operand ih =>
    exact List.forall_mem_cons.mpr ⟨by rw [hsign]; decide, ih⟩
  | binary hsign hleft hbelow hright habove ihleft ihright =>
    exact List.forall_mem_append.mpr
      ⟨ihleft, List.forall_mem_cons.mpr ⟨ne_eof_of_ofKind? hsign, ihright⟩⟩

/-- A rendering has a token. -/
lemma length_pos (h : Rendering top e ts) : 0 < ts.length := by
  cases h with
  | leaf | enclosed | negate => exact Nat.succ_pos _
  | binary =>
    rw [List.length_append, List.length_cons]
    omega

end Rendering

/-! ### Reading a rendering -/

section Expressions

variable {σ : Type} [Window σ] {sub : Operator.Precedence → Reading σ Expr} {s rest : σ} {e : Expr}
  {ts : List Token} {top : Option Operator}

/-- A leaf is read, up to spans. -/
lemma operand_leaf (sub : Operator.Precedence → Reading σ Expr) {t : Token} (h : Leaf e t)
    (hs : Yields s [t] rest) :
    ∃ e', operand sub s = .ok e' rest ∧ e'.mapSpans Span.forget = e.mapSpans Span.forget := by
  obtain ⟨next, hadvance, hnext⟩ := hs.exists_advance
  obtain rfl : next = rest := hnext
  have hread (e' : Expr) : (advance >>= fun _ => pure e') s = .ok e' next := bind_of_ok hadvance
  rw [operand, bind_current, hs.1]
  cases h with
  | var hk | text hk | color hk | litTrue hk | litFalse hk =>
    rw [hk]
    exact ⟨_, hread _, rfl⟩
  | number hk hx =>
    rw [hk]
    dsimp only
    rw [hx]
    exact ⟨_, hread _, rfl⟩
  | selector hk =>
    refine ⟨.selector t, ?_, rfl⟩
    cases hkind : t.kind <;> rw [hkind] at hk <;> first
      | exact hread (.selector t)
      | cases hk

/-- A minus sign is read with the operand behind it. -/
lemma operand_minus {sign : Token} {e' : Expr} {next : σ} (hsign : sign.kind = .minus)
    (hcurrent : Window.current s = sign) (hadvance : advance s = .ok sign next)
    (hsub : sub .unary next = .ok e' rest) :
    operand sub s = .ok (.negate e' (sign.span.merge e'.span)) rest := by
  rw [operand, bind_current, hcurrent, hsign]
  dsimp only
  rw [bind_of_ok hadvance, bind_of_ok hsub]
  rfl

/-- An expression in parentheses is read with them. -/
lemma operand_paren {opener closer : Token} {e' : Expr} {next last : σ}
    (hopener : opener.kind = .leftParen) (hcurrent : Window.current s = opener)
    (hadvance : advance s = .ok opener next) (hsub : sub .lowest next = .ok e' last)
    (hcloser : closer.kind = .rightParen) (hlast : Yields last [closer] rest) :
    operand sub s = .ok e' rest := by
  obtain ⟨after, hclose, hafter⟩ := hlast.exists_advance
  obtain rfl : after = rest := hafter
  have hkind : (Window.current last).kind = .rightParen := by rw [hlast.1, hcloser]
  have hend : Window.isAtEnd last = false := by
    rw [Window.isAtEnd, hkind]
    rfl
  have hexpect : expectClose .paren opener.span last = .ok closer after := by
    rw [expectClose, bind_window, hend]
    change expect .rightParen last = .ok closer after
    rw [expect, bind_check, decide_eq_true hkind]
    exact hclose
  rw [operand, bind_current, hcurrent, hopener]
  dsimp only
  rw [bind_of_ok hadvance, bind_of_ok hsub, bind_of_ok hexpect]
  rfl

/-- Climbing stops where no operator follows that binds more strongly than the floor. -/
lemma climb_stop {m : Nat} {floor : Operator.Precedence} (hm : 0 < m)
    (h : ∀ op, Operator.ofKind? (Window.current s).kind = some op →
      op.precedence.rank ≤ floor.rank) :
    climb sub m floor e s = .ok e s := by
  obtain ⟨m, rfl⟩ : ∃ k, m = k + 1 := ⟨m - 1, by omega⟩
  cases hop : Operator.ofKind? (Window.current s).kind with
  | none => exact climb_of_none hop
  | some op => exact climb_of_le hop (h op hop)

/-- The invariant of precedence climbing.  Behind a rendering whose operator binds more strongly
than the floor, and no less strongly than the operator that follows, the reading is climbing with
the expression that was rendered. -/
lemma climbs_of_rendering (h : Rendering top e ts) (n : Nat) (floor : Operator.Precedence)
    (hs : Yields s ts rest) (hn : ts.length ≤ n + 1)
    (hfloor : ∀ op ∈ top, floor.rank < op.precedence.rank)
    (hrest : ∀ op ∈ top, ∀ next, Operator.ofKind? (Window.current rest).kind = some next →
      next.precedence.rank ≤ op.precedence.rank) :
    ∃ e' m, expressionUpTo (n + 1) floor s = climb (expressionUpTo n) m floor e' rest ∧
      n + 2 ≤ m + ts.length ∧ e'.mapSpans Span.forget = e.mapSpans Span.forget := by
  induction h generalizing s rest n floor with
  | leaf hleaf =>
    obtain ⟨e', hoperand, hsame⟩ := operand_leaf (expressionUpTo n) hleaf hs
    exact ⟨e', n + 1, bind_of_ok hoperand, Nat.le_refl _, hsame⟩
  | @enclosed top e ts opener closer hopener hcloser inner ih =>
    have hlength : ts.length + 2 ≤ n + 1 := by simpa using hn
    obtain ⟨n, rfl⟩ : ∃ k, n = k + 1 := ⟨n - 1, by omega⟩
    obtain ⟨next, hadvance, hnext⟩ := hs.exists_advance
    obtain ⟨last, hinner, hlast⟩ := hnext.append
    have hstop : ∀ op, Operator.ofKind? (Window.current last).kind ≠ some op := by
      intro op hop
      rw [hlast.1, hcloser] at hop
      cases hop
    obtain ⟨e', m, hread, hm, hsame⟩ := ih n .lowest hinner (by omega)
      (fun op _ => rank_lowest_lt op) (fun _ _ op hop => absurd hop (hstop op))
    have hsub : expressionUpTo (n + 1) .lowest next = .ok e' last :=
      hread.trans (climb_stop (by omega) fun op hop => absurd hop (hstop op))
    have hoperand : operand (expressionUpTo (n + 1)) s = .ok e' rest :=
      operand_paren hopener hs.1 hadvance hsub hcloser hlast
    refine ⟨e', n + 2, bind_of_ok hoperand, ?_, hsame⟩
    rw [List.length_cons]
    omega
  | @negate e ts sign span hsign operand ih =>
    have hlength : ts.length + 1 ≤ n + 1 := hn
    have hpos := operand.length_pos
    obtain ⟨n, rfl⟩ : ∃ k, n = k + 1 := ⟨n - 1, by omega⟩
    obtain ⟨next, hadvance, hnext⟩ := hs.exists_advance
    obtain ⟨e', m, hread, hm, hsame⟩ := ih n .unary hnext (by omega) nofun nofun
    have hsub : expressionUpTo (n + 1) .unary next = .ok e' rest :=
      hread.trans (climb_stop (by omega) fun op _ => by cases op <;> decide)
    have hoperand := operand_minus hsign hs.1 hadvance hsub
    refine ⟨_, n + 2, bind_of_ok hoperand, ?_, ?_⟩
    · rw [List.length_cons]
      omega
    · rw [Expr.mapSpans, Expr.mapSpans, hsame]
      rfl
  | @binary op topLeft topRight left right ts us sign span hsign hleft hbelow hright habove ihleft
      ihright =>
    have hpos := hleft.length_pos
    have hpos' := hright.length_pos
    rw [List.length_append, List.length_cons] at hn
    obtain ⟨mid, hts, hmid⟩ := hs.append
    obtain ⟨next, hadvance, hus⟩ := hmid.exists_advance
    have hop : Operator.ofKind? (Window.current mid).kind = some op := by rw [hmid.1, hsign]
    have hfloor : floor.rank < op.precedence.rank := hfloor op rfl
    -- The left operand is read up to the operator, and climbing goes on with it.
    obtain ⟨left', m, hclimb, hm, hsame⟩ := ihleft n floor hts (by omega)
      (fun inner hinner => Nat.lt_of_lt_of_le hfloor (hbelow inner hinner))
      (fun inner hinner op' hop' => by
        obtain rfl : op = op' := Option.some.inj (hop.symm.trans hop')
        exact hbelow inner hinner)
    obtain ⟨n, rfl⟩ : ∃ k, n = k + 1 := ⟨n - 1, by omega⟩
    obtain ⟨m, rfl⟩ : ∃ k, m = k + 1 := ⟨m - 1, by omega⟩
    -- The right operand is read above the operator, and what follows does not belong to it.
    obtain ⟨right', m', hread, hm', hsame'⟩ := ihright n op.precedence hus (by omega) habove
      (fun inner hinner op' hop' =>
        Nat.le_trans (hrest op rfl op' hop') (Nat.le_of_lt (habove inner hinner)))
    have hsub : expressionUpTo (n + 1) op.precedence next = .ok right' rest :=
      hread.trans (climb_stop (by omega) (hrest op rfl))
    refine ⟨.binary op left' right' (left'.span.merge right'.span), m, ?_, ?_, ?_⟩
    · rw [hclimb, climb_of_lt hop hfloor, bind_of_ok hadvance, bind_of_ok hsub]
    · rw [List.length_append, List.length_cons]
      omega
    · rw [Expr.mapSpans, Expr.mapSpans, hsame, hsame']
      rfl

/-- A rendering is read if its tokens are, and no operator follows. -/
lemma expression_of_yields (h : Rendering top e ts) (hs : Yields s ts rest)
    (hrest : Operator.ofKind? (Window.current rest).kind = none) :
    ∃ e', expression s = .ok e' rest ∧ e'.mapSpans Span.forget = e.mapSpans Span.forget := by
  have hnone : ∀ op, Operator.ofKind? (Window.current rest).kind ≠ some op := by
    intro op hop
    cases hrest.symm.trans hop
  have hlength : ts.length ≤ Window.size s := hs.length_le_size h.kind_ne_eof
  obtain ⟨e', m, hread, hm, hsame⟩ := climbs_of_rendering h (Window.size s) .lowest hs (by omega)
    (fun op _ => rank_lowest_lt op) (fun _ _ op hop => absurd hop (hnone op))
  exact ⟨e', hread.trans (climb_stop (by omega) fun op hop => absurd hop (hnone op)), hsame⟩

/-- A window whose tokens are followed by an error, beside one whose tokens go on. -/
def cutShort (tokens more : List Token) (e : Token.ScanError)
    (ending : Except Token.ScanError Span) : Pairing Cursor Cursor where
  Pair c d := ∃ before a b rest, c = ⟨before, a, b, rest, .error e⟩ ∧
    d = ⟨before, a, b, rest ++ more, ending⟩ ∧ a :: b :: rest <:+ tokens
  spans := id
  Stop e' := e' = e
  merge := keepsMerge_id
  before := by
    rintro _ _ ⟨before, a, b, rest, rfl, rfl, -⟩
    rfl
  current := by
    rintro _ _ ⟨before, a, b, rest, rfl, rfl, -⟩
    rfl
  ahead := by
    rintro _ _ ⟨before, a, b, rest, rfl, rfl, -⟩
    rfl
  size_le := by
    rintro _ _ ⟨before, a, b, rest, rfl, rfl, -⟩
    exact Nat.add_le_add_left (List.sublist_append_left rest more).length_le _
  advance := by
    rintro _ _ ⟨before, a, b, rest, rfl, rfl, hsuffix⟩ -
    rcases rest with _ | ⟨t, rest⟩
    · exact .inl ⟨e, rfl, rfl⟩
    · refine .inr (.inr ⟨_, _, rfl, rfl, a.span, b, t, rest, rfl, rfl, ?_⟩)
      exact (List.suffix_cons a _).trans hsuffix

/-- The window has to be filled behind a rendering too: if scanning fails before the token after the
next one, that is the result. -/
lemma expression_of_ending_error (h : Rendering top e ts) {s : Cursor} {follow : Token}
    {err : Token.ScanError} (hs : s.current :: s.ahead :: s.later <+: ts ++ [follow])
    (hending : s.ending = .error err) (hfollow : Operator.ofKind? follow.kind = none) :
    ∃ c, expression s = .failed (.scan err) c := by
  obtain ⟨before, a, b, later, ending⟩ := s
  obtain rfl : ending = .error err := hending
  obtain ⟨more, hmore⟩ := hs
  -- Beside it stands a window with the same tokens, where two tokens follow the rendering.
  let last : Token := .endOfInput (.point 0)
  have htokens : a :: b :: (later ++ (more ++ [last])) = ts ++ [follow, last] := by
    have hlast := congrArg (· ++ [last]) hmore
    simpa using hlast
  let p := cutShort (a :: b :: later) (more ++ [last]) err (.ok (.point 0))
  have hpair : p.Pair ⟨before, a, b, later, .error err⟩
      (Cursor.on before (.point 0) (ts ++ [follow, last])) := by
    rw [← htokens]
    exact ⟨before, a, b, later, rfl, rfl, List.suffix_refl _⟩
  obtain ⟨before', hyields⟩ := Cursor.yields_on_append before (.point 0) ts [follow, last]
  obtain ⟨e', hread, -⟩ := expression_of_yields h hyields hfollow
  have hagrees := p.agrees_expression hpair
  rw [hread] at hagrees
  generalize expression (⟨before, a, b, later, .error err⟩ : Cursor) = reply at hagrees
  cases hagrees with
  | ok hat _ _ _ =>
    -- That window has all the tokens read that the other one does not have.
    obtain ⟨_, _, _, unread, -, hunread, -⟩ := hat
    have hnil : [] = unread ++ (more ++ [last]) := congrArg Cursor.later hunread
    simp at hnil
  | stopped herr =>
    rw [show _ = err from herr]
    exact ⟨_, rfl⟩
  | starved hhungry => exact hhungry.elim

/-- **Reading inverts rendering.**  A rendering of an expression followed by a token that is no
operator is read as the expression, up to spans, and reading stops at that token.  This holds of the
tokens of a text, and wherever a window yields the tokens one by one.  They cannot if scanning fails
before the window has passed the rendering, and its error is then the result. -/
theorem expression_of_rendering (h : Rendering top e ts) :
    (∀ (before stop : Span) (us : List Token),
      (∀ t ∈ us.head?, Operator.ofKind? t.kind = none) →
        ∃ e' before', expression (Cursor.on before stop (ts ++ us)) =
            .ok e' (Cursor.on before' stop us) ∧
          e'.mapSpans Span.forget = e.mapSpans Span.forget) ∧
    (∀ (τ : Type) [Window τ] (s rest : τ), Yields s ts rest →
      Operator.ofKind? (Window.current rest).kind = none →
        ∃ e', expression s = .ok e' rest ∧ e'.mapSpans Span.forget = e.mapSpans Span.forget) ∧
    (∀ (s : Cursor) (follow : Token) (err : Token.ScanError),
      s.current :: s.ahead :: s.later <+: ts ++ [follow] → s.ending = .error err →
        Operator.ofKind? follow.kind = none → ∃ c, expression s = .failed (.scan err) c) := by
  refine ⟨fun before stop us hus => ?_, fun _ _ s rest hs hrest => expression_of_yields h hs hrest,
    fun s follow err hs hending hfollow => expression_of_ending_error h hs hending hfollow⟩
  obtain ⟨before', hyields⟩ := Cursor.yields_on_append before stop ts us
  have hrest : Operator.ofKind? (Window.current (Cursor.on before' stop us)).kind = none := by
    cases us with
    | nil => rfl
    | cons t us =>
      rw [Cursor.current_on_cons]
      exact hus t rfl
  obtain ⟨e', hread, hsame⟩ := expression_of_yields h hyields hrest
  exact ⟨e', before', hread, hsame⟩

/-- The tokens of `$a - $b - ($c == true) * -#fff`. -/
def differenceTokens : List Token :=
  [⟨.variableName, "a", .point 0⟩, ⟨.minus, "-", .point 3⟩, ⟨.variableName, "b", .point 5⟩,
    ⟨.minus, "-", .point 8⟩, ⟨.leftParen, "(", .point 10⟩, ⟨.variableName, "c", .point 11⟩,
    ⟨.equal, "==", .point 14⟩, ⟨.litTrue, "true", .point 17⟩, ⟨.rightParen, ")", .point 21⟩,
    ⟨.star, "*", .point 23⟩, ⟨.minus, "-", .point 25⟩, ⟨.color, "#fff", .point 26⟩]

/-- `($a - $b) - (($c == true) * (-#fff))`, without spans. -/
def difference : Expr :=
  .binary .sub (.binary .sub (.var "a" (.point 0)) (.var "b" (.point 0)) (.point 0))
    (.binary .mul (.binary .equal (.var "c" (.point 0)) (.bool true (.point 0)) (.point 0))
      (.negate (.color "#fff" (.point 0)) (.point 0)) (.point 0)) (.point 0)

/-- A difference whose right side is a difference is rendered with parentheses and read back. -/
theorem expression_of_rendering_difference :
    Rendering (some .sub) difference differenceTokens ∧
    ∃ e before', expression (Cursor.on (.point 0) (.point 31)
          (differenceTokens ++ [⟨.semicolon, ";", .point 30⟩])) =
        .ok e (Cursor.on before' (.point 31) [⟨.semicolon, ";", .point 30⟩]) ∧
      e.mapSpans Span.forget = difference := by
  have hvar (name : String) (start : Nat) : Rendering none (.var name (.point 0))
      [⟨.variableName, name, .point start⟩] :=
    .leaf (.var (t := ⟨.variableName, name, .point start⟩) rfl)
  have htrue : Rendering none (.bool true (.point 0)) [⟨.litTrue, "true", .point 17⟩] :=
    .leaf (.litTrue rfl)
  have hcolor : Rendering none (.color "#fff" (.point 0)) [⟨.color, "#fff", .point 26⟩] :=
    .leaf (.color (t := ⟨.color, "#fff", .point 26⟩) rfl)
  have hleft : Rendering (some .sub)
      (.binary .sub (.var "a" (.point 0)) (.var "b" (.point 0)) (.point 0))
      (differenceTokens.take 3) :=
    .binary rfl (hvar "a" 0) nofun (hvar "b" 5) nofun
  have hequal : Rendering (some .equal)
      (.binary .equal (.var "c" (.point 0)) (.bool true (.point 0)) (.point 0))
      ((differenceTokens.drop 5).take 3) :=
    .binary rfl (hvar "c" 11) nofun htrue nofun
  have hmul : ∀ inner ∈ some Operator.mul,
      Operator.sub.precedence.rank < inner.precedence.rank := by
    rintro _ ⟨⟩
    decide
  have hrendering : Rendering (some .sub) difference differenceTokens :=
    .binary rfl hleft (fun _ h => by cases h; exact Nat.le_refl _)
      (.binary rfl (.enclosed rfl rfl hequal) nofun (.negate rfl hcolor) nofun) hmul
  exact ⟨hrendering, (expression_of_rendering hrendering).1 (.point 0) (.point 31) [_]
    (fun _ h => by cases h; rfl)⟩

end Expressions

end StyleSheet.Sheet

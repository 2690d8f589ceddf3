import StyleSheet.Proofs.Grammar.Forms

/-!
# The shape of forms

Facts about the forms of the grammar that do not mention readings: which tokens a form starts with,
what cannot follow it, that a form takes at least a token, and that sequences of operations and
lists of values can be put together and cut in other ways.
-/

namespace StyleSheet.Sheet.Form

/-! ### First tokens -/

/-- Kinds that an operand starts with. -/
def StartsOperand (k : Token.Kind) : Prop := k = .minus ∨ k = .leftParen ∨ IsAtom k

instance : DecidablePred IsAtom := fun k =>
  inferInstanceAs (Decidable (k = .variableName ∨ k = .number ∨ k = .string ∨ k = .color ∨
    k = .litTrue ∨ k = .litFalse ∨ k.isSelector = true))

instance : DecidablePred StartsOperand := fun k =>
  inferInstanceAs (Decidable (k = .minus ∨ k = .leftParen ∨ IsAtom k))

/-- An operand starts with a sign, a parenthesis or an atom. -/
lemma Operand.exists_head {ks rest : Kinds} (h : Operand ks rest) :
    ∃ k r, ks = k :: r ∧ StartsOperand k := by
  cases h with
  | negated => exact ⟨_, _, rfl, .inl rfl⟩
  | enclosed => exact ⟨_, _, rfl, .inr (.inl rfl)⟩
  | atom hk => exact ⟨_, _, rfl, .inr (.inr hk)⟩

/-- An expression starts as its first operand does. -/
lemma Expression.exists_head {ks rest : Kinds} (h : Expression ks rest) :
    ∃ k r, ks = k :: r ∧ StartsOperand k := by
  obtain ⟨first, -⟩ := h
  exact first.exists_head

/-- The first kind of an expression starts an operand. -/
lemma Expression.startsOperand {k : Token.Kind} {ks rest : Kinds} (h : Expression (k :: ks) rest) :
    StartsOperand k := by
  obtain ⟨k', r, hks, hstart⟩ := h.exists_head
  obtain ⟨rfl, -⟩ := List.cons.inj hks
  exact hstart

/-- An operand that starts with an operator is a negation. -/
lemma Operand.of_operator {k : Token.Kind} {op : Operator} {ks rest : Kinds}
    (h : Operand (k :: ks) rest) (hop : Operator.ofKind? k = some op) : Operand ks rest := by
  cases h with
  | negated operand => exact operand
  | enclosed => cases hop
  | atom hk =>
    rcases hk with rfl | rfl | rfl | rfl | rfl | rfl | hk
    case inr.inr.inr.inr.inr.inr => cases k <;> cases hop <;> cases hk
    all_goals cases hop

/-- Not an operator: an expression cannot go on here. -/
def NoOperator (ks : Kinds) : Prop := ∀ k r, ks = k :: r → Operator.ofKind? k = none

/-- No operator is next where the first kind is none. -/
lemma noOperator_cons {k : Token.Kind} {ks : Kinds} (h : Operator.ofKind? k = none) :
    NoOperator (k :: ks) := by
  intro k' r hks
  obtain ⟨rfl, -⟩ := List.cons.inj hks
  exact h

/-- No operator is next where a statement ends. -/
lemma End.noOperator {ks rest : Kinds} (h : End ks rest) : NoOperator ks := by
  cases h with
  | semicolon => exact noOperator_cons rfl
  | brace => exact noOperator_cons rfl
  | input =>
    intro k r hks
    cases hks

/-- A statement starts neither with a closing brace nor with `@else`. -/
lemma Statement.exists_head {ks rest : Kinds} (h : Statement ks rest) :
    ∃ k r, ks = k :: r ∧ k ≠ .rightBrace ∧ k ≠ .keyword .atElse := by
  cases h with
  | conditional cond => cases cond <;> exact ⟨_, _, rfl, by decide, by decide⟩
  | ruleset hk =>
    refine ⟨_, _, rfl, ?_, ?_⟩
    all_goals
      rintro rfl
      cases hk
  | expression _ value =>
    have hstart := value.startsOperand
    refine ⟨_, _, rfl, ?_, ?_⟩
    all_goals
      rintro rfl
      exact absurd hstart (by decide)
  | _ => exact ⟨_, _, rfl, by decide, by decide⟩

/-- What follows a statement does not start with `@else`. -/
lemma Statements.ne_else {ks fin : Kinds} (h : Statements ks fin)
    (hfin : ∀ r, fin ≠ .keyword .atElse :: r) : ∀ r, ks ≠ .keyword .atElse :: r := by
  intro r hks
  cases h with
  | nil => exact hfin r hks
  | semicolon => cases hks
  | cons first =>
    obtain ⟨k, r', rfl, -, hk⟩ := first.exists_head
    exact hk (List.cons.inj hks).1

/-- An expression that is a statement does not go on with a colon. -/
lemma Expression.ne_colon {k : Token.Kind} {ks fin rest : Kinds}
    (h : Expression (.variableName :: k :: ks) fin) (ends : End fin rest) : k ≠ .colon := by
  rintro rfl
  obtain ⟨first, others⟩ := h
  cases first with
  | atom =>
    cases others with
    | nil => cases ends
    | cons hop => cases hop

/-! ### Joining -/

/-- Operations may be followed by more of them. -/
lemma Operations.append {ks mid rest : Kinds} (h : Operations ks mid) (k : Operations mid rest) :
    Operations ks rest := by
  match h with
  | .nil => exact k
  | .cons hop right others => exact .cons hop right (others.append k)

/-- An operator with an expression as its right operand is a sequence of operations. -/
lemma Operations.of_expression {k : Token.Kind} {op : Operator} {ks rest : Kinds}
    (hop : Operator.ofKind? k = some op) (h : Expression ks rest) : Operations (k :: ks) rest := by
  obtain ⟨first, others⟩ := h
  exact .cons hop first others

/-- Values can be cut so that no operator follows the first: an operator there is the minus sign of
a negation, and joins it to the first. -/
lemma exists_joined {ks mid fin : Kinds} (first : Expression ks mid)
    (others : Many Expression mid fin) (hfin : NoOperator fin) :
    ∃ mid', Expression ks mid' ∧ NoOperator mid' ∧ Many Expression mid' fin := by
  induction others generalizing ks with
  | nil => exact ⟨_, first, hfin, .nil⟩
  | @cons mid next fin second others ih =>
    obtain ⟨k, r, rfl, -⟩ := second.exists_head
    cases hop : Operator.ofKind? k with
    | none => exact ⟨k :: r, first, noOperator_cons hop, .cons second others⟩
    | some op =>
      obtain ⟨negation, more⟩ := second
      obtain ⟨left, operations⟩ := first
      have hjoined : Expression ks next :=
        ⟨left, operations.append (.cons hop (negation.of_operator hop) more)⟩
      exact ih hjoined hfin

/-! ### Lengths -/

/-- Less is left behind an expression.  By induction on it, with its operands and the operations
that follow them. -/
theorem Expression.length_lt {ks rest : Kinds} (h : Expression ks rest) :
    rest.length < ks.length := by
  refine @Expression.rec (fun ks rest _ => rest.length < ks.length)
    (fun ks rest _ => rest.length < ks.length) (fun ks rest _ => rest.length ≤ ks.length)
    ?negated ?enclosed ?atom ?mk ?nil ?cons ks rest h
  case negated => exact fun _ ih => Nat.lt_succ_of_lt ih
  case enclosed =>
    intro ks rest _ ih
    rw [List.length_cons] at ih ⊢
    omega
  case atom => exact fun _ => Nat.lt_succ_self _
  case mk => exact fun _ _ hfirst hothers => Nat.lt_of_le_of_lt hothers hfirst
  case nil => exact Nat.le_refl _
  case cons =>
    intro k op ks mid rest _ _ _ hright hothers
    exact Nat.le_succ_of_le (Nat.le_trans hothers (Nat.le_of_lt hright))

/-- Less is left behind an operand, which is an expression without operations. -/
lemma Operand.length_lt {ks rest : Kinds} (h : Operand ks rest) : rest.length < ks.length :=
  (Expression.mk h .nil).length_lt

/-- One kind less is left behind one. -/
lemma One.length_lt {p : Token.Kind → Prop} {ks rest : Kinds} (h : One p ks rest) :
    rest.length < ks.length := by
  cases h
  exact Nat.lt_succ_self _

/-- No more is left behind many items. -/
lemma Many.length_le {item : Kinds → Kinds → Prop}
    (hitem : ∀ {ks rest}, item ks rest → rest.length < ks.length) {ks rest : Kinds}
    (h : Many item ks rest) : rest.length ≤ ks.length := by
  induction h with
  | nil => exact Nat.le_refl _
  | cons first _ ih => exact Nat.le_trans ih (Nat.le_of_lt (hitem first))

/-- No more is left behind separated items. -/
lemma Separated.length_le {item : Kinds → Kinds → Prop}
    (hitem : ∀ {ks rest}, item ks rest → rest.length < ks.length) {ks rest : Kinds}
    (h : Separated item ks rest) : rest.length ≤ ks.length := by
  induction h with
  | nil => exact Nat.le_refl _
  | last only => exact Nat.le_of_lt (hitem only)
  | cons first _ ih =>
    have := hitem first
    rw [List.length_cons] at this
    omega

/-- No more is left behind items in parentheses. -/
lemma Parenthesized.length_le {item : Kinds → Kinds → Prop}
    (hitem : ∀ {ks rest}, item ks rest → rest.length < ks.length) {ks rest : Kinds}
    (h : Parenthesized item ks rest) : rest.length ≤ ks.length := by
  cases h with
  | absent => exact Nat.le_refl _
  | present items =>
    have := items.length_le hitem
    rw [List.length_cons] at this ⊢
    omega

/-- No more is left behind the end of a statement. -/
lemma End.length_le {ks rest : Kinds} (h : End ks rest) : rest.length ≤ ks.length := by
  cases h with
  | semicolon => exact Nat.le_succ _
  | brace => exact Nat.le_refl _
  | input => exact Nat.le_refl _

/-- No more is left behind what can be left out. -/
lemma Optional.length_le {k : Token.Kind} {ks rest : Kinds} (h : Optional k ks rest) :
    rest.length ≤ ks.length := by
  cases h with
  | absent => exact Nat.le_refl _
  | present => exact Nat.le_succ _

/-- Less is left behind a statement.  By induction on it, with the conditions, the blocks and the
statements in it. -/
theorem Statement.length_lt {ks rest : Kinds} (h : Statement ks rest) :
    rest.length < ks.length := by
  -- statements, conditions, blocks and lists of statements are taken by one recursion; only a list
  -- of statements may be empty
  refine @Statement.rec (fun ks rest _ => rest.length < ks.length)
    (fun ks rest _ => rest.length < ks.length) (fun ks rest _ => rest.length < ks.length)
    (fun ks rest _ => rest.length ≤ ks.length)
    ?assignment ?declaration ?importation ?mixin ?expansion ?extension ?conditional ?ruleset
    ?expression ?plain ?otherwise ?chained ?block ?nil ?semicolon ?cons ks rest h
  case assignment =>
    intro ks flags fin rest value flagged ends
    have := value.length_lt
    have := flagged.length_le One.length_lt
    have := ends.length_le
    simp only [List.length_cons]
    omega
  case declaration =>
    intro ks values mark fin rest first others important ends
    have := first.length_lt
    have := others.length_le Expression.length_lt
    have := important.length_le
    have := ends.length_le
    simp only [List.length_cons]
    omega
  case importation =>
    intro ks rest ends
    have := ends.length_le
    simp only [List.length_cons]
    omega
  case mixin =>
    intro k ks body rest _ params _ hblock
    have := params.length_le One.length_lt
    simp only [List.length_cons]
    omega
  case expansion =>
    intro k ks fin rest _ args ends
    have := args.length_le Expression.length_lt
    have := ends.length_le
    simp only [List.length_cons]
    omega
  case extension =>
    intro k ks fin rest _ others ends
    have := others.length_le One.length_lt
    have := ends.length_le
    simp only [List.length_cons]
    omega
  case conditional => exact fun _ ih => ih
  case ruleset =>
    intro k ks body rest _ header _ hblock
    have := header.length_le One.length_lt
    simp only [List.length_cons]
    omega
  case expression => exact fun _ value ends => Nat.lt_of_le_of_lt ends.length_le value.length_lt
  case plain =>
    intro ks body rest condition _ hyes
    have := condition.length_lt
    simp only [List.length_cons]
    omega
  case otherwise =>
    intro ks body no rest condition _ _ hyes hblock
    have := condition.length_lt
    simp only [List.length_cons] at *
    omega
  case chained =>
    intro ks body no rest condition _ _ hyes hnext
    have := condition.length_lt
    simp only [List.length_cons] at *
    omega
  case block =>
    intro ks rest _ hstatements
    simp only [List.length_cons] at *
    omega
  case nil => exact Nat.le_refl _
  case semicolon => exact fun _ ih => Nat.le_succ_of_le ih
  case cons => exact fun _ _ hfirst hothers => Nat.le_trans hothers (Nat.le_of_lt hfirst)

/-- No more is left behind a block, which can be the body of a ruleset. -/
lemma Block.length_le {ks rest : Kinds} (h : Block ks rest) : rest.length ≤ ks.length :=
  Nat.le_of_lt_succ (Statement.ruleset (k := .typeSelector) rfl .nil h).length_lt

end StyleSheet.Sheet.Form

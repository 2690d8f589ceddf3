import Mathlib.Data.List.TakeWhile
import Mathlib.Tactic.Lemma
import StyleSheet.Sheet.Grammar

/-!
# What scanning yields

A property of all the tokens of a text follows from what one step of the scanner does
(`run_invariant`).  The first use is that a token of the kind of numbers is a numeral with a unit,
so that its text always has a value (`readable_tokenize`).
-/

namespace StyleSheet.Token

/-! ### Runs -/

namespace Scanner

variable {table : Keyword.Table} {s : Scanner}

/-- An invariant that each step keeps holds wherever the scanner stands, so what each step gives
holds of all tokens, and what the last gives holds of the ending. -/
lemma run_invariant (inv : Scanner → Prop) (good : Token → Prop)
    (final : Except ScanError Span → Prop)
    (hnext : ∀ s t s', inv s → s.next table = .ok (t, s') → t.kind ≠ .eof → good t ∧ inv s')
    (hend : ∀ s t s', inv s → s.next table = .ok (t, s') → t.kind = .eof → final (.ok t.span))
    (herror : ∀ s e, inv s → s.next table = .error e → final (.error e)) (s : Scanner)
    (hs : inv s) : (∀ t ∈ (s.run table).tokens, good t) ∧ final (s.run table).ending := by
  rw [run_eq]
  cases hstep : s.next table with
  | error e => exact ⟨fun t ht => absurd ht List.not_mem_nil, herror s e hs hstep⟩
  | ok p =>
    obtain ⟨t, s'⟩ := p
    by_cases hk : t.kind = .eof
    · simp only [hk, ↓reduceIte]
      exact ⟨fun t ht => absurd ht List.not_mem_nil, hend s t s' hs hstep hk⟩
    · simp only [hk, ↓reduceIte]
      obtain ⟨ht, hs'⟩ := hnext s t s' hs hstep hk
      have hshorter : s'.rest.length < s.rest.length := next_rest_lt hstep hk
      obtain ⟨htokens, hending⟩ := run_invariant inv good final hnext hend herror s' hs'
      exact ⟨List.forall_mem_cons.mpr ⟨ht, htokens⟩, hending⟩
termination_by s.rest.length

/-- What the next token is: trivia that joins two selectors, the end, or a lexeme. -/
lemma cut_cases {c : Cut} (h : s.cut table = .ok c) :
    (s.joinsSelectors (triviaSize none s.rest) = true ∧
      c = ⟨.descendantCombinator, 0, triviaSize none s.rest⟩) ∨
    (c = ⟨.eof, triviaSize none s.rest, 0⟩ ∧ s.rest.drop (triviaSize none s.rest) = []) ∨
    ∃ a rest l, s.rest.drop (triviaSize none s.rest) = a :: rest ∧
      lexeme table s.previous (triviaSize none s.rest == 0) a rest = .ok l ∧
      c = ⟨l.kind, triviaSize none s.rest, l.more + 1⟩ := by
  unfold cut at h
  simp only at h
  split at h
  · rename_i hjoins
    cases h
    exact .inl ⟨hjoins, rfl⟩
  · split at h
    · rename_i hnil
      cases h
      exact .inr (.inl ⟨rfl, hnil⟩)
    · rename_i a rest hcons
      cases hl : lexeme table s.previous (triviaSize none s.rest == 0) a rest with
      | ok l =>
        rw [hl] at h
        cases h
        exact .inr (.inr ⟨a, rest, l, hcons, hl, rfl⟩)
      | error e =>
        rw [hl] at h
        cases h

/-- A step takes the token of a cut. -/
lemma next_eq_ok {t : Token} {s' : Scanner} (h : s.next table = .ok (t, s')) :
    ∃ c, s.cut table = .ok c ∧ s.take c = (t, s') := by
  unfold next at h
  cases hc : s.cut table with
  | error e =>
    rw [hc] at h
    cases h
  | ok c =>
    rw [hc] at h
    exact ⟨c, rfl, Except.ok.inj h⟩

/-- The scanner remembers the kind of the token that it has yielded. -/
lemma previous_of_next {t : Token} {s' : Scanner} (h : s.next table = .ok (t, s')) :
    s'.previous = some t.kind := by
  obtain ⟨c, -, htake⟩ := next_eq_ok h
  obtain ⟨rfl, rfl⟩ := Prod.mk.inj htake
  rfl

/-- The first token of a run is taken by a step, and the rest of the run follows it. -/
lemma next_of_run {t : Token} {after : List Token} (h : (s.run table).tokens = t :: after) :
    ∃ s' : Scanner, s.next table = .ok (t, s') ∧
      s'.run table = ⟨after, (s.run table).ending⟩ := by
  rw [run_eq] at h ⊢
  cases hstep : s.next table with
  | error e => simp [hstep] at h
  | ok p =>
    obtain ⟨u, s'⟩ := p
    by_cases hk : u.kind = .eof
    · simp [hstep, hk] at h
    · simp only [hstep, hk, if_false, Tokenization.cons, List.cons.injEq] at h ⊢
      obtain ⟨rfl, rfl⟩ := h
      exact ⟨s', rfl, rfl⟩

/-- Each token of a run is taken by a step, which knows the kind of the token before. -/
lemma exists_next_of_run {before after : List Token} {t : Token}
    (h : (s.run table).tokens = before ++ t :: after) :
    ∃ s₁ s₂ : Scanner, s₁.next table = .ok (t, s₂) ∧
      s₁.previous = (before.getLast?.map Token.kind).or s.previous ∧
      s₂.run table = ⟨after, (s.run table).ending⟩ := by
  induction before generalizing s with
  | nil =>
    obtain ⟨s', hstep, hrun⟩ := next_of_run h
    exact ⟨s, s', hstep, rfl, hrun⟩
  | cons u before ih =>
    obtain ⟨s', hstep, hrun⟩ := next_of_run h
    obtain ⟨s₁, s₂, hnext, hprevious, hafter⟩ := ih (congrArg Tokenization.tokens hrun)
    refine ⟨s₁, s₂, hnext, ?_, hafter.trans (by rw [hrun])⟩
    rw [hprevious, previous_of_next hstep, List.getLast?_cons]
    cases before.getLast? with
    | none => rfl
    | some v => rfl

end Scanner

/-- Scanning that succeeds yields the token for the end of the input after all others. -/
lemma Tokenization.exists_ending_of_all {ts : Tokenization} {tokens : List Token}
    (h : ts.all = .ok tokens) :
    ∃ span, ts.ending = .ok span ∧ tokens = ts.tokens ++ [.endOfInput span] := by
  unfold all at h
  cases hending : ts.ending with
  | ok span =>
    rw [hending] at h
    exact ⟨span, rfl, (Except.ok.inj h).symm⟩
  | error e =>
    rw [hending] at h
    cases h

/-! ### Numerals -/

/-- The run of characters of a class is all that is taken while the class lasts. -/
lemma take_runSize (p : Char → Bool) (cs : List Char) : cs.take (runSize p cs) = cs.takeWhile p :=
  (List.prefix_iff_eq_take.mp (List.takeWhile_prefix p)).symm

/-- A fraction is empty, or a point with digits after it. -/
lemma take_fractionSize (cs : List Char) :
    cs.take (fractionSize cs) = [] ∨
      ∃ ds : List Char, cs.take (fractionSize cs) = '.' :: ds ∧ ∀ d ∈ ds, d.isDigit = true := by
  unfold fractionSize
  split
  · split
    · rename_i rest _
      refine .inr ⟨rest.takeWhile Char.isDigit, ?_, fun d hd => List.mem_takeWhile_imp hd⟩
      rw [List.take_succ_cons, take_runSize]
    · exact .inl (List.take_zero)
  · exact .inl (List.take_zero)

/-- A letter starts no number. -/
lemma not_numeral_of_isAlpha {c : Char} (h : c.isAlpha = true) :
    (c.isDigit || c == '.') = false := by
  by_cases hdot : c = '.'
  · subst hdot
    exact absurd h (by decide)
  · have hdigit : c.isDigit = false := by
      change (decide (c.val ≥ 'A'.val ∧ c.val ≤ 'Z'.val) ||
        (decide (c.val ≥ 'a'.val) && decide (c.val ≤ 'z'.val))) = true at h
      simp only [Bool.or_eq_true, Bool.and_eq_true, decide_eq_true_eq, ge_iff_le,
        UInt32.le_iff_toNat_le] at h
      simp only [Char.isDigit, Bool.and_eq_false_iff, decide_eq_false_iff_not, ge_iff_le,
        UInt32.le_iff_toNat_le]
      simp at h ⊢
      omega
    rw [hdigit]
    simpa using hdot

/-- A unit does not start like a numeral. -/
lemma takeWhile_unit (cs : List Char) :
    (cs.take (unitSize cs)).takeWhile (fun c => c.isDigit || c == '.') = [] := by
  unfold unitSize
  split
  · rfl
  · rw [take_runSize]
    cases hcs : cs.takeWhile Char.isAlpha with
    | nil => rfl
    | cons a as =>
      have hmem : a ∈ cs.takeWhile Char.isAlpha := by
        rw [hcs]
        exact List.mem_cons_self
      rw [List.takeWhile_cons, not_numeral_of_isAlpha (List.mem_takeWhile_imp hmem)]
      rfl

/-- Digits with a fraction have a value. -/
lemma isSome_ofDecimal? {whole fraction : List Char} (hwhole : whole ≠ [])
    (hdigits : ∀ d ∈ whole, d.isDigit = true)
    (hfraction : fraction = [] ∨ ∃ ds : List Char, fraction = '.' :: ds ∧
      ∀ d ∈ ds, d.isDigit = true) :
    (Number.ofDecimal? (whole ++ fraction)).isSome = true := by
  have htake : (whole ++ fraction).takeWhile Char.isDigit = whole := by
    rw [List.takeWhile_append_of_pos hdigits]
    rcases hfraction with rfl | ⟨ds, rfl, -⟩
    · simp
    · simp
  unfold Number.ofDecimal?
  simp only [htake, List.drop_left]
  rcases hfraction with rfl | ⟨ds, rfl, hds⟩
  · simp [hwhole]
  · have hall : ds.all Char.isDigit = true := List.all_eq_true.mpr hds
    simp [hwhole, hall]

/-- After its first digit a number has digits, a fraction, and something that is neither. -/
lemma take_number (rest : List Char) : ∃ fraction unit : List Char,
    rest.take (number rest).more = rest.takeWhile Char.isDigit ++ fraction ++ unit ∧
    (fraction = [] ∨ ∃ ds : List Char, fraction = '.' :: ds ∧ ∀ d ∈ ds, d.isDigit = true) ∧
    unit.takeWhile (fun c => c.isDigit || c == '.') = [] := by
  refine ⟨_, _, ?_, take_fractionSize (rest.drop (runSize Char.isDigit rest)),
    takeWhile_unit (rest.drop (runSize Char.isDigit rest +
      fractionSize (rest.drop (runSize Char.isDigit rest))))⟩
  simp only [number, List.take_add, take_runSize]

/-- The text of a number has a value. -/
lemma isSome_splitNumber? {c : Char} (hc : c.isDigit = true) (rest : List Char) :
    (Sheet.splitNumber? (String.ofList (c :: rest.take (number rest).more))).isSome = true := by
  obtain ⟨fraction, unit, htext, hfraction, hunit⟩ := take_number rest
  have hdigits : ∀ d ∈ c :: rest.takeWhile Char.isDigit, d.isDigit = true :=
    List.forall_mem_cons.mpr ⟨hc, fun d hd => List.mem_takeWhile_imp hd⟩
  have hnumeral : ∀ d ∈ c :: rest.takeWhile Char.isDigit ++ fraction,
      (d.isDigit || d == '.') = true := by
    intro d hd
    rcases List.mem_append.mp hd with hd | hd
    · simp [hdigits d hd]
    · rcases hfraction with rfl | ⟨ds, rfl, hds⟩
      · cases hd
      · rcases List.mem_cons.mp hd with rfl | hd
        · rfl
        · simp [hds d hd]
  have htake : (c :: rest.take (number rest).more).takeWhile (fun c => c.isDigit || c == '.') =
      c :: rest.takeWhile Char.isDigit ++ fraction := by
    rw [htext, ← List.cons_append, ← List.cons_append, List.takeWhile_append_of_pos hnumeral, hunit,
      List.append_nil]
  unfold Sheet.splitNumber? Sheet.splitWith
  simp only [String.toList_ofList, htake, Option.isSome_map]
  exact isSome_ofDecimal? (List.cons_ne_nil _ _) hdigits hfraction

/-! ### Kinds of lexemes -/

/-- The kinds of lexemes of which nothing more is said. -/
def plainKinds : List Kind :=
  [.colon, .minus, .star, .equal, .notEqual, .greater, .string, .color, .litTrue, .litFalse,
    .childCombinator, .property]

/-- What can be recognised at the character `c` before `rest`. -/
inductive Recognised (c : Char) (rest : List Char) : Except LexemeError Lexeme → Prop
  | punctuation {k : Kind} (h : punctuation? c = some k) : Recognised c rest (.ok ⟨k, 0⟩)
  | number (h : c.isDigit = true) : Recognised c rest (.ok (number rest))
  | variableName : Recognised c rest (.ok ⟨.variableName, variableSize rest⟩)
  | keyword (k : Keyword) (n : Nat) : Recognised c rest (.ok ⟨.keyword k, n⟩)
  | selector (s : Compound) (a : Char) (n : Nat) : Recognised c rest (.ok ⟨s.kind a, n⟩)
  | plain {k : Kind} (hk : k ∈ plainKinds) (n : Nat) : Recognised c rest (.ok ⟨k, n⟩)
  | unknown : Recognised c rest (.error (.unknown 0))
  | unknownKeyword : Recognised c rest
    (.error (.unknown (runSize (fun c => c.isAlpha || c == '-' || c == '_') rest)))
  | unterminated (what : Enclosure) (before : Nat) :
    Recognised c rest (.error (.unterminated what before))

section Recognised

variable {c : Char} {rest : List Char} {x y : Except LexemeError Lexeme}

/-- A choice is recognised if both of its sides are. -/
lemma recognised_ite {p : Prop} [Decidable p] (hx : p → Recognised c rest x)
    (hy : Recognised c rest y) : Recognised c rest (if p then x else y) :=
  iteInduction hx fun _ => hy

/-- The kind of a compound selector is that of a simple selector. -/
lemma isSimpleSelector_kind (s : Compound) (c : Char) : (s.kind c).isSimpleSelector = true := by
  unfold Compound.kind
  split_ifs
  all_goals rfl

/-- What is read as a selector is a simple selector. -/
lemma isSimpleSelector_of_selector {a : Char} {cs : List Char} {l : Lexeme}
    (h : selector a cs = .ok l) : l.kind.isSimpleSelector = true := by
  unfold selector at h
  simp only at h
  split at h
  · cases h
    exact isSimpleSelector_kind _ _
  · cases h

/-- A selector is recognised. -/
lemma recognised_selector (a : Char) (cs : List Char) : Recognised c rest (selector a cs) := by
  unfold selector
  simp only
  split
  · exact .selector _ _ _
  · exact .unterminated _ _

/-- A keyword is recognised. -/
lemma recognised_keyword (table : Keyword.Table) (a : Char) :
    Recognised c rest (keyword table a rest) := by
  unfold keyword
  simp only
  split
  · exact .keyword _ _
  · exact .unknownKeyword

/-- A word is recognised. -/
lemma recognised_word (previous : Option Kind) (a : Char) (cs : List Char) :
    Recognised c rest (word previous a cs) := by
  refine recognised_ite (fun _ => .plain (by decide) _) ?_
  refine recognised_ite (fun _ => .plain (by decide) _) ?_
  refine recognised_ite (fun _ => recognised_selector a cs) ?_
  refine recognised_ite (fun _ => .plain (by decide) _) ?_
  exact recognised_ite (fun _ => .plain (by decide) _) (.plain (by decide) _)

/-- What starts with a hash sign is recognised. -/
lemma recognised_hash (previous : Option Kind) (cs : List Char) :
    Recognised c rest (hash previous cs) := by
  refine recognised_ite (fun _ => recognised_selector '#' cs) ?_
  refine recognised_ite (fun _ => .plain (by decide) _) ?_
  exact recognised_ite (fun _ => recognised_selector '#' cs) .unknown

/-- What starts with a sign is recognised. -/
lemma recognised_minus (previous : Option Kind) (cs : List Char) :
    Recognised c rest (.ok (minus previous cs)) := by
  unfold minus
  simp only
  split
  · exact .plain (by decide) _
  · exact .plain (by decide) _

/-- A string is recognised. -/
lemma recognised_quotedString (quote : Char) (cs : List Char) :
    Recognised c rest (quotedString quote cs) := by
  unfold quotedString
  split
  · exact .plain (by decide) _
  · exact .unterminated _ _

/-- Every token that starts with a character is recognised. -/
lemma recognised_lexeme (table : Keyword.Table) (previous : Option Kind) (attached : Bool)
    (c : Char) (rest : List Char) : Recognised c rest (lexeme table previous attached c rest) := by
  unfold lexeme
  simp only
  split
  · rename_i hp
    exact .punctuation hp
  · refine recognised_ite (fun _ => recognised_minus previous rest) ?_
    refine recognised_ite (fun _ => .plain (by decide) _) ?_
    refine recognised_ite (fun _ => .plain (by decide) _) ?_
    refine recognised_ite (fun _ => recognised_keyword table c) ?_
    refine recognised_ite (fun _ => .plain ?_ _) ?_
    · split_ifs <;> decide
    refine recognised_ite (fun _ => recognised_ite (fun _ => recognised_selector c rest)
      (.plain (by decide) _)) ?_
    refine recognised_ite (fun _ => recognised_ite (fun _ => recognised_selector c rest)
      (.plain (by decide) _)) ?_
    refine recognised_ite (fun _ => recognised_ite (fun _ => .variableName) .unknown) ?_
    refine recognised_ite (fun _ => recognised_quotedString c rest) ?_
    refine recognised_ite (fun hdigit => .number hdigit) ?_
    refine recognised_ite (fun _ => recognised_hash previous rest) ?_
    refine recognised_ite (fun _ => recognised_selector c rest) ?_
    exact recognised_ite (fun _ => recognised_word previous c rest) .unknown

/-- A lexeme is of none of these kinds, unless it is the number that a digit starts. -/
def unwritten : List Kind := [.number, .eof, .descendantCombinator]

/-- A punctuation mark is none of the kinds that are not written. -/
lemma punctuation?_ne {k : Kind} (h : punctuation? c = some k) : k ∉ unwritten := by
  intro hk
  revert h
  unfold punctuation?
  simp only [unwritten, List.mem_cons, List.not_mem_nil, or_false] at hk
  rcases hk with rfl | rfl | rfl
  all_goals
    repeat refine iteInduction (motive := (· ≠ some _)) (fun _ => by decide) fun _ => ?_
    exact Option.some_ne_none _ |>.symm

/-- Only a digit starts a number, and nothing that is recognised stands for trivia or for the end of
the input. -/
lemma Recognised.notMem_unwritten {l : Lexeme} (h : Recognised c rest (.ok l)) :
    (c.isDigit = true ∧ l = Token.number rest) ∨ l.kind ∉ unwritten := by
  have hplain : ∀ k ∈ plainKinds, k ∉ unwritten := by decide
  have hselector : ∀ k ∈ unwritten, ¬ k.isSimpleSelector = true := by decide
  cases h with
  | punctuation hp => exact .inr (punctuation?_ne hp)
  | number hdigit => exact .inl ⟨hdigit, rfl⟩
  | variableName => exact .inr (show Kind.variableName ∉ unwritten by decide)
  | keyword k n => exact .inr (by simp [unwritten])
  | selector s a n => exact .inr fun hk => hselector _ hk (isSimpleSelector_kind s a)
  | plain hk n => exact .inr (hplain _ hk)

/-- A token that starts with a character is no descendant combinator. -/
lemma kind_ne_descendant_of_lexeme {table : Keyword.Table} {previous : Option Kind}
    {attached : Bool} {l : Lexeme} (h : lexeme table previous attached c rest = .ok l) :
    l.kind ≠ .descendantCombinator := by
  intro hk
  have hl : Recognised c rest (.ok l) := h ▸ recognised_lexeme table previous attached c rest
  rcases hl.notMem_unwritten with ⟨-, rfl⟩ | hnot
  · cases hk
  · exact hnot (by rw [hk]; decide)

end Recognised

/-- The result is never the end of the input, and it is of the kind of numbers only if it is the
number that starts with the digit `c`. -/
def NumberOnly (c : Char) (rest : List Char) (x : Except LexemeError Lexeme) : Prop :=
  ∀ ⦃l⦄, x = .ok l →
    l.kind ≠ .eof ∧ (l.kind = .number → c.isDigit = true ∧ l = number rest)

/-- Only what starts like a number is one. -/
lemma numberOnly_lexeme {c : Char} {rest : List Char} (table : Keyword.Table)
    (previous : Option Kind) (attached : Bool) :
    NumberOnly c rest (lexeme table previous attached c rest) := by
  intro l h
  have hl : Recognised c rest (.ok l) := h ▸ recognised_lexeme table previous attached c rest
  rcases hl.notMem_unwritten with ⟨hdigit, rfl⟩ | hnot
  · exact ⟨Kind.noConfusion, fun _ => ⟨hdigit, rfl⟩⟩
  · simp only [unwritten, List.mem_cons, List.not_mem_nil, or_false, not_or] at hnot
    exact ⟨hnot.2.1, fun hk => absurd hk hnot.1⟩

/-- A number that a scanner takes has a value. -/
lemma Scanner.isSome_splitNumber?_of_next {table : Keyword.Table} {s s' : Scanner} {t : Token}
    (h : s.next table = .ok (t, s')) (hk : t.kind = .number) :
    (Sheet.splitNumber? t.text).isSome = true := by
  obtain ⟨cut, hcut, htake⟩ := next_eq_ok h
  obtain ⟨rfl, -⟩ := Prod.mk.inj htake
  rcases cut_cases hcut with ⟨-, rfl⟩ | ⟨rfl, -⟩ | ⟨c, rest, l, hrest, hl, rfl⟩
  · cases hk
  · cases hk
  · obtain ⟨hdigit, rfl⟩ := (numberOnly_lexeme table s.previous _ hl).2 hk
    simp only [hrest, List.take_succ_cons]
    exact isSome_splitNumber? hdigit rest

/-- Scanning yields no token for the end of the input among the others, and its numbers have
values. -/
lemma readable_tokenize (table : Keyword.Table) (source : String) :
    ∀ t ∈ (tokenize table source).tokens,
      t.kind ≠ .eof ∧ (t.kind = .number → (Sheet.splitNumber? t.text).isSome = true) := by
  have hstep : ∀ (s : Scanner) (t : Token) (s' : Scanner), True → s.next table = .ok (t, s') →
      t.kind ≠ .eof → (t.kind ≠ .eof ∧
        (t.kind = .number → (Sheet.splitNumber? t.text).isSome = true)) ∧ True :=
    fun _ _ _ _ h hk => ⟨⟨hk, Scanner.isSome_splitNumber?_of_next h⟩, trivial⟩
  exact (Scanner.run_invariant (fun _ => True) _ (fun _ => True) hstep (fun _ _ _ _ _ _ => trivial)
    (fun _ _ _ _ => trivial) (Scanner.ofText source) trivial).1

end StyleSheet.Token

import StyleSheet.Proofs.Scanning.HeaderTokens

/-!
# The neighbours of a descendant combinator

Trivia becomes a descendant combinator before the word behind it is scanned, on the strength of its
first character and of the look ahead for a header.  This module compares that guess with what the
word turns out to be (`neighbours_of_descendant`): before a combinator stands a simple selector, and
behind it one as well, or a truth value, since `true` and `false` are never selectors.
-/

namespace StyleSheet.Token

/-! ### What follows a combinator -/

/-- A token that is scanned as a truth value wherever it stands. -/
def IsTruthValue (t : Token) : Prop :=
  (t.kind = .litTrue ∧ t.text = "true") ∨ (t.kind = .litFalse ∧ t.text = "false")

/-- A word where a selector starts is one, unless it is a truth value. -/
lemma word_of_selectorStarts {previous : Option Kind} {c : Char} {rest : List Char} {l : Lexeme}
    (hstarts : selectorStarts previous (c :: rest) = true) (h : word previous c rest = .ok l)
    (span : Span) :
    l.kind.isSimpleSelector = true ∨
      IsTruthValue ⟨l.kind, String.ofList (c :: rest.take l.more), span⟩ := by
  unfold word at h
  simp only [hstarts, if_true] at h
  split at h
  · rename_i htrue
    cases h
    exact .inr (.inl ⟨rfl, by simpa using htrue⟩)
  · split at h
    · rename_i hfalse
      cases h
      exact .inr (.inr ⟨rfl, by simpa using hfalse⟩)
    · exact .inl (isSimpleSelector_of_selector h)

/-- Where a selector starts, a character that can start one does, unless it starts a truth value. -/
lemma lexeme_of_startsSelector {table : Keyword.Table} {previous : Option Kind} {attached : Bool}
    {c : Char} {rest : List Char} {l : Lexeme} (hc : startsSelector c = true)
    (hstarts : selectorStarts previous (c :: rest) = true)
    (h : lexeme table previous attached c rest = .ok l) (span : Span) :
    l.kind.isSimpleSelector = true ∨
      IsTruthValue ⟨l.kind, String.ofList (c :: rest.take l.more), span⟩ := by
  by_cases hname : isNameStart c = true
  · rw [Header.lexeme_of_isNameStart hname] at h
    exact word_of_selectorStarts hstarts h span
  · refine .inl ?_
    simp only [startsSelector, hname, Bool.false_or, Bool.or_eq_true, beq_iff_eq] at hc
    -- A point and a percent sign need a name behind them, else nothing is scanned at all.
    have hpoint (d : Char) (hd : (if headIs isNameStart rest = true then selector d rest
        else .error (.unknown 0)) = .ok l) : l.kind.isSimpleSelector = true := by
      split at hd
      · exact isSimpleSelector_of_selector hd
      · cases hd
    rcases hc with (((rfl | rfl) | rfl) | rfl) | rfl
    · exact hpoint '.' h
    · have hhash : hash previous rest = .ok l := h
      rw [hash] at hhash
      simp only [hstarts, if_true] at hhash
      exact isSimpleSelector_of_selector hhash
    · have hstar : (if selectorStarts previous ('*' :: rest) = true then selector '*' rest
          else .ok ⟨.star, 0⟩) = .ok l := h
      rw [if_pos hstarts] at hstar
      exact isSimpleSelector_of_selector hstar
    · exact hpoint '%' h
    · cases h
      rfl

/-! ### Runs -/

namespace Scanner

variable {table : Keyword.Table} {s : Scanner}

/-- A combinator is taken between a simple selector and a character that starts one in a header. -/
lemma joinsSelectors_of_next {t : Token} {s' : Scanner} (h : s.next table = .ok (t, s'))
    (hk : t.kind = .descendantCombinator) :
    s.previous.any Kind.isSimpleSelector = true ∧ headIs startsSelector s'.rest = true ∧
      headerAhead (.plain 0) s'.rest = true := by
  obtain ⟨c, hcut, htake⟩ := next_eq_ok h
  obtain ⟨rfl, rfl⟩ := Prod.mk.inj htake
  rcases cut_cases hcut with ⟨hjoins, rfl⟩ | ⟨rfl, -⟩ | ⟨a, rest, l, -, hl, rfl⟩
  · simp only [joinsSelectors, Bool.and_eq_true] at hjoins
    obtain ⟨⟨⟨hprevious, -⟩, hstarts⟩, hahead⟩ := hjoins
    simp only [Nat.zero_add]
    exact ⟨hprevious, hstarts, hahead⟩
  · cases hk
  · exact absurd hk (kind_ne_descendant_of_lexeme hl)

/-- The step behind a combinator takes a simple selector or a truth value. -/
lemma next_of_descendant {t : Token} {s' : Scanner}
    (hprevious : s.previous = some .descendantCombinator)
    (hstarts : headIs startsSelector s.rest = true) (hahead : headerAhead (.plain 0) s.rest = true)
    (h : s.next table = .ok (t, s')) : t.kind.isSimpleSelector = true ∨ IsTruthValue t := by
  obtain ⟨c, hcut, htake⟩ := next_eq_ok h
  obtain ⟨rfl, -⟩ := Prod.mk.inj htake
  have hnone : triviaSize none s.rest = 0 :=
    triviaSize_eq_zero (Header.startsTrivia_of_headIs hstarts)
  rcases cut_cases hcut with ⟨hjoins, -⟩ | ⟨-, hnil⟩ | ⟨a, rest, l, hrest, hl, rfl⟩
  · simp [joinsSelectors, hprevious, Kind.isSimpleSelector] at hjoins
  · rw [hnone, List.drop_zero] at hnil
    rw [hnil] at hstarts
    cases hstarts
  · rw [hnone, List.drop_zero] at hrest
    rw [hrest] at hstarts hahead
    have hselector : selectorStarts s.previous (a :: rest) = true := by
      rw [selectorStarts, hprevious, hahead]
      rfl
    have htext : (s.rest.drop (triviaSize none s.rest)).take (l.more + 1) =
        a :: rest.take l.more := by
      rw [hnone, List.drop_zero, hrest, List.take_succ_cons]
    simp only [htext]
    exact lexeme_of_startsSelector hstarts hselector hl _

/-- Where scanning succeeds, a simple selector or a truth value follows a combinator. -/
lemma run_of_descendant {stop : Span} (hprevious : s.previous = some .descendantCombinator)
    (hstarts : headIs startsSelector s.rest = true) (hahead : headerAhead (.plain 0) s.rest = true)
    (h : (s.run table).ending = .ok stop) :
    ∃ b others, (s.run table).tokens = b :: others ∧
      (b.kind.isSimpleSelector = true ∨ IsTruthValue b) := by
  rw [run_eq] at h ⊢
  cases hstep : s.next table with
  | error e =>
    rw [hstep] at h
    cases h
  | ok p =>
    obtain ⟨b, s'⟩ := p
    have hb := next_of_descendant hprevious hstarts hahead hstep
    have hkind : b.kind ≠ .eof := by
      intro heof
      rcases hb with hb | ⟨hb, -⟩ | ⟨hb, -⟩
      all_goals
        rw [heof] at hb
        cases hb
    simp only [hkind, if_false]
    exact ⟨b, (s'.run table).tokens, rfl, hb⟩

end Scanner

/-- Behind a token other than the one for the end of the input, that one is still to come. -/
lemma Tokenization.split_of_all {ts : Tokenization} {before after : List Token} {t : Token}
    (h : ts.all = .ok (before ++ t :: after)) (hk : t.kind ≠ .eof) :
    ∃ after' stop, after = after' ++ [.endOfInput stop] ∧
      ts = ⟨before ++ t :: after', .ok stop⟩ := by
  obtain ⟨stop, hending, htokens⟩ := exists_ending_of_all h
  rcases List.eq_nil_or_concat' after with rfl | ⟨after', last, rfl⟩
  · obtain ⟨-, hlast⟩ := List.append_inj' htokens rfl
    obtain ⟨rfl, -⟩ := List.cons.inj hlast
    exact absurd rfl hk
  · rw [← List.cons_append, ← List.append_assoc] at htokens
    obtain ⟨hinit, hlast⟩ := List.append_inj' htokens rfl
    refine ⟨after', stop, by rw [hlast], ?_⟩
    rw [hinit, ← hending]

/-- A descendant combinator stands right behind a simple selector and right before one, or before
a truth value. -/
theorem neighbours_of_descendant (table : Keyword.Table) (source : String)
    (before after : List Token) (t : Token)
    (h : (tokenize table source).all = .ok (before ++ t :: after))
    (hk : t.kind = .descendantCombinator) :
    (∃ init a, before = init ++ [a] ∧ a.kind.isSimpleSelector = true) ∧
      ∃ b others, after = b :: others ∧ (b.kind.isSimpleSelector = true ∨ IsTruthValue b) := by
  obtain ⟨after', stop, rfl, hscan⟩ := Tokenization.split_of_all h (by rw [hk]; decide)
  have htokens : ((Scanner.ofText source).run table).tokens = before ++ t :: after' :=
    congrArg Tokenization.tokens hscan
  obtain ⟨s₁, s₂, hnext, hprevious, hrun⟩ := Scanner.exists_next_of_run htokens
  obtain ⟨hsimple, hstarts, hahead⟩ := Scanner.joinsSelectors_of_next hnext hk
  constructor
  · rcases List.eq_nil_or_concat' before with rfl | ⟨init, a, rfl⟩
    · rw [hprevious] at hsimple
      cases hsimple
    · refine ⟨init, a, rfl, ?_⟩
      simpa [hprevious] using hsimple
  · have hdescendant : s₂.previous = some .descendantCombinator := by
      rw [Scanner.previous_of_next hnext, hk]
    have hending : (s₂.run table).ending = .ok stop := by
      rw [hrun]
      exact congrArg Tokenization.ending hscan
    obtain ⟨b, others, htail, hb⟩ :=
      Scanner.run_of_descendant hdescendant hstarts hahead hending
    have hafter : after' = b :: others := by rw [← htail, hrun]
    exact ⟨b, others ++ [.endOfInput stop], by rw [hafter, List.cons_append], hb⟩

/-- A comment joins two selectors, and a blank stands before a truth value. -/
def joinedText : String := "A/*c*/.b true\x7b"

/-- Its tokens. -/
def joinedTokens : List Token :=
  [⟨.typeSelector, "A", ⟨0, 1⟩⟩, ⟨.descendantCombinator, "/*c*/", ⟨1, 6⟩⟩,
    ⟨.classSelector, ".b", ⟨6, 8⟩⟩, ⟨.descendantCombinator, " ", ⟨8, 9⟩⟩,
    ⟨.litTrue, "true", ⟨9, 13⟩⟩, ⟨.leftBrace, "\x7b", ⟨13, 14⟩⟩, ⟨.eof, "", ⟨14, 14⟩⟩]

/-- Selectors joined by blanks, by a comment and in front of a truth value. -/
theorem neighbours_of_descendant_joinedText :
    (tokenize .builtin joinedText).all = .ok joinedTokens ∧
      ∀ before t after, joinedTokens = before ++ t :: after → t.kind = .descendantCombinator →
        (∃ init a, before = init ++ [a] ∧ a.kind.isSimpleSelector = true) ∧
          ∃ b others, after = b :: others ∧
            (b.kind.isSimpleSelector = true ∨ IsTruthValue b) := by
  have hscan : (tokenize .builtin joinedText).all = .ok joinedTokens := by decide +kernel
  refine ⟨hscan, fun before t after hsplit hk => ?_⟩
  rw [hsplit] at hscan
  exact neighbours_of_descendant .builtin joinedText before after t hscan hk

/-- Not every descendant combinator stands before a simple selector: behind `A` a blank joins it
to a truth value. -/
theorem exists_descendant_before_truth_value :
    ∃ source before t b after, (tokenize .builtin source).all = .ok (before ++ t :: b :: after) ∧
      t.kind = .descendantCombinator ∧ b.kind.isSimpleSelector = false := by
  have hscan : (tokenize .builtin "A true \x7b").all = .ok
      ([⟨.typeSelector, "A", ⟨0, 1⟩⟩] ++ ⟨.descendantCombinator, " ", ⟨1, 2⟩⟩ ::
        ⟨.litTrue, "true", ⟨2, 6⟩⟩ :: [⟨.leftBrace, "\x7b", ⟨7, 8⟩⟩, ⟨.eof, "", ⟨8, 8⟩⟩]) := by
    decide +kernel
  exact ⟨_, _, _, _, _, hscan, rfl, rfl⟩

end StyleSheet.Token

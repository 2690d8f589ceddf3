import StyleSheet.Proofs.Grammar.Cursor
import StyleSheet.Proofs.Grammar.Lockstep
import StyleSheet.Proofs.Grammar.Steps
import StyleSheet.Proofs.Scanning

/-!
# Scanning while reading

A text is scanned while it is read: whenever the window moves on, the scanner is asked for one more
token.  Beside such a stream stands a cursor, a window on all tokens that were scanned before.  Both
show the same tokens, and what the scanner would still yield is what is left of the tokens
(`Follows`).  Each step keeps this, so reading a text while it is scanned and reading it from
its tokens come to the same (`ofText_eq_ofTokens`).
-/

namespace StyleSheet

namespace Token.Scanner

variable {table : Keyword.Table} {s s' : Scanner} {t : Token}

/-- Behind the end of the input a scanner stays where it is and yields the end again. -/
lemma next_of_next_eof (h : s.next table = .ok (t, s')) (hk : t.kind = .eof) :
    t = .endOfInput t.span ∧ s'.next table = .ok (t, s') := by
  obtain ⟨c, hcut, htake⟩ := next_eq_ok h
  obtain rfl : (s.take c).1 = t := congrArg Prod.fst htake
  obtain rfl : (s.take c).2 = s' := congrArg Prod.snd htake
  rcases cut_cases hcut with ⟨-, rfl⟩ | ⟨rfl, hnil⟩ | ⟨a, rest, l, -, hl, rfl⟩
  · cases hk
  · constructor
    · simp [take, endOfInput]
    · simp [next, cut, take, hnil, triviaSize, joinsSelectors, Except.map, Text.byteLength,
        Kind.isSimpleSelector]
  · exact absurd hk (numberOnly_lexeme table s.previous _ hl).1

/-- All that a scanner yields, as its next step tells: an error, the end of the input, which it
yields for ever, or a token and what the scanner behind it yields. -/
lemma run_cases (table : Keyword.Table) (s : Scanner) :
    (∃ e, s.next table = .error e ∧ s.run table = ⟨[], .error e⟩) ∨
    (∃ span s', s.next table = .ok (.endOfInput span, s') ∧ s.run table = ⟨[], .ok span⟩ ∧
      s'.run table = ⟨[], .ok span⟩) ∨
    ∃ t s', s.next table = .ok (t, s') ∧ t.kind ≠ .eof ∧ s.run table = (s'.run table).cons t := by
  rcases h : s.next table with e | ⟨t, s'⟩
  · refine .inl ⟨e, rfl, ?_⟩
    rw [run_eq, h]
  · by_cases hk : t.kind = .eof
    · obtain ⟨ht, hagain⟩ := next_of_next_eof h hk
      refine .inr (.inl ⟨t.span, s', by rw [← ht], ?_, ?_⟩)
      · rw [run_eq, h]
        exact if_pos hk
      · rw [run_eq, hagain]
        exact if_pos hk
    · refine .inr (.inr ⟨t, s', rfl, hk, ?_⟩)
      rw [run_eq, h]
      exact if_neg hk

/-- Each token has a character of its own. -/
lemma length_tokens_run_le (table : Keyword.Table) (s : Scanner) :
    (s.run table).tokens.length ≤ s.rest.length := by
  rcases run_cases table s with ⟨e, -, hrun⟩ | ⟨span, s', -, hrun, -⟩ | ⟨t, s', hnext, hk, hrun⟩
  · rw [hrun]
    exact Nat.zero_le _
  · rw [hrun]
    exact Nat.zero_le _
  · rw [hrun]
    have hlt := next_rest_lt hnext hk
    have hle := length_tokens_run_le table s'
    exact Nat.succ_le_of_lt (Nat.lt_of_le_of_lt hle hlt)
termination_by s.rest.length

end Token.Scanner

namespace Sheet

/-- The windows show the same tokens, and the scanner of the second one has yet to yield what
follows in the first one. -/
structure Follows (c : Cursor) (s : Stream) : Prop where
  before : c.before = s.before
  current : c.current = s.current
  ahead : c.ahead = s.ahead
  later : s.scanner.run s.table = ⟨c.later, c.ending⟩

/-- The windows go on together, or they meet the same error of the scanner. -/
lemma Follows.advance {c : Cursor} {s : Stream} (h : Follows c s) :
    (∃ e, c.advance = .error e ∧ s.advance = .error e) ∨
      ∃ c' s', c.advance = .ok c' ∧ s.advance = .ok s' ∧ Follows c' s' := by
  obtain ⟨before, current, ahead, later, ending⟩ := c
  obtain ⟨table, _, _, _, scanner⟩ := s
  obtain ⟨rfl, rfl, rfl, hlater⟩ := h
  rcases scanner.run_cases table with
    ⟨e, hnext, hrun⟩ | ⟨span, scanner', hnext, hrun, hagain⟩ | ⟨t, scanner', hnext, -, hrun⟩
  · cases hlater.symm.trans hrun
    refine .inl ⟨e, rfl, ?_⟩
    simp only [Stream.advance, hnext]
    rfl
  · cases hlater.symm.trans hrun
    refine .inr ⟨_, ⟨table, current.span, ahead, .endOfInput span, scanner'⟩, rfl, ?_,
      rfl, rfl, rfl, hagain⟩
    simp only [Stream.advance, hnext]
    rfl
  · cases hlater.symm.trans hrun
    refine .inr ⟨_, ⟨table, current.span, ahead, t, scanner'⟩, rfl, ?_, rfl, rfl, rfl, rfl⟩
    simp only [Stream.advance, hnext]
    rfl

/-- Whatever tokens are taken from the second window can be taken from the first one. -/
lemma Follows.takes {c : Cursor} {s t : Stream} {used : List Token} (h : Follows c s)
    (htakes : Window.Takes s used t) : ∃ d, Window.Takes c used d ∧ Follows d t := by
  refine htakes.invariant (fun used t => ∃ d, Window.Takes c used d ∧ Follows d t)
    ⟨c, .refl c, h⟩ ?_
  rintro used t u ⟨d, hd, hfollows⟩ hne hnext
  have hcurrent : Window.current d = Window.current t := hfollows.current
  rcases hfollows.advance with ⟨e, -, he⟩ | ⟨d', u', hd', hu', hfollows'⟩
  · cases hnext.symm.trans he
  · cases hnext.symm.trans hu'
    rw [← hcurrent] at hne ⊢
    exact ⟨d', hd.step hne hd', hfollows'⟩

/-- Windows on the tokens of a text beside windows on the text itself. -/
def following : Pairing Cursor Stream where
  Pair := Follows
  spans := id
  Stop _ := False
  merge := keepsMerge_id
  before h := h.before
  current h := congrArg _ h.current
  ahead h := congrArg Token.kind h.ahead
  size_le := by
    intro c s h
    have hle := Token.Scanner.length_tokens_run_le s.table s.scanner
    rw [h.later] at hle
    change c.size ≤ s.size
    rw [Cursor.size, Stream.size, h.current, h.ahead]
    exact Nat.add_le_add_left hle _
  advance h _ := .inr h.advance

/-- The first window on a text shows the second token as the one ahead. -/
lemma Stream.ofText_of_next {table : Keyword.Table} {source : String} {t : Token}
    {s : Token.Scanner} (h : (Token.Scanner.ofText source).next table = .ok (t, s)) :
    Stream.ofText table source =
      (s.next table).map fun r => ⟨table, ⟨0, 0⟩, t, r.1, r.2⟩ := by
  rw [Stream.ofText, h]
  rfl

/-- The first windows on a text and on its tokens show the same, or there are none because of the
same error. -/
lemma follows_ofText (table : Keyword.Table) (source : String) :
    (∃ e, Cursor.ofTokens (Token.tokenize table source) = .error e ∧
      Stream.ofText table source = .error e) ∨
    ∃ c s, Cursor.ofTokens (Token.tokenize table source) = .ok c ∧
      Stream.ofText table source = .ok s ∧ Follows c s := by
  rw [Token.tokenize]
  rcases (Token.Scanner.ofText source).run_cases table with
    ⟨e, hnext, hrun⟩ | ⟨span, s₁, hnext, hrun, hagain⟩ | ⟨t, s₁, hnext, -, hrun⟩
  · rw [hrun, Stream.ofText, hnext]
    exact .inl ⟨e, rfl, rfl⟩
  · obtain ⟨-, hend⟩ := Token.Scanner.next_of_next_eof hnext rfl
    rw [hrun, Stream.ofText_of_next hnext, hend]
    exact .inr ⟨_, _, rfl, rfl, rfl, rfl, rfl, hagain⟩
  · rw [hrun, Stream.ofText_of_next hnext]
    rcases s₁.run_cases table with
      ⟨e, hnext₁, hrun₁⟩ | ⟨span, s₂, hnext₁, hrun₁, hagain⟩ | ⟨u, s₂, hnext₁, -, hrun₁⟩
    · rw [hrun₁, hnext₁]
      exact .inl ⟨e, rfl, rfl⟩
    · rw [hrun₁, hnext₁]
      exact .inr ⟨_, _, rfl, rfl, rfl, rfl, rfl, hagain⟩
    · rw [hrun₁, hnext₁]
      exact .inr ⟨_, _, rfl, rfl, rfl, rfl, rfl, rfl⟩

/-- Reading a text while it is scanned comes to the same as reading its tokens. -/
theorem ofText_eq_ofTokens (table : Keyword.Table) (source : String) :
    ofText table source = ofTokens (Token.tokenize table source) := by
  rcases follows_ofText table source with ⟨e, hc, hs⟩ | ⟨c, s, hc, hs, h⟩
  · rw [ofText, ofTokens, hc, hs]
  · rw [ofText, ofTokens, hc, hs]
    rcases following.ofWindow_of_pair h with ⟨_, hstop, -⟩ | hread
    · exact hstop.elim
    · have hid : Sheet.mapSpans id (ofWindow c) = Sheet.mapSpans id (ofWindow s) := hread
      rw [mapSpans_id, mapSpans_id] at hid
      exact hid.symm

end Sheet

end StyleSheet

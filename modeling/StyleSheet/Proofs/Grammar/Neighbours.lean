import StyleSheet.Proofs.Grammar.Consumption
import StyleSheet.Proofs.Scanning.Combinators

/-!
# Neighbours of tokens

Of which kind a token is depends on what stands before it and behind it.  A name is a property name
if a colon follows, `>` is a combinator behind a selector, and behind a selector a colon can start
the next one.  Each of these is found out in one step of the scanner, while the neighbour is scanned
in another step.  That the steps agree is what reading relies on: at a property name it is enough to
look one token ahead, and there always stands a colon.
-/

namespace StyleSheet

open Text

namespace Token

/-! ### One lexeme -/

section Suits

variable {previous : Option Kind} {rest : List Char} {x y : Except LexemeError Lexeme}

/-- What is recognised suits its neighbours: a property name stands before a colon, and a child
combinator behind a simple selector. -/
def Suits (previous : Option Kind) (rest : List Char) (x : Except LexemeError Lexeme) : Prop :=
  ∀ ⦃l⦄, x = .ok l → (l.kind = .property → colonFollows (rest.drop l.more) = true) ∧
    (l.kind = .childCombinator → previous.any Kind.isSimpleSelector = true)

/-- A choice suits if both of its sides do. -/
lemma suits_ite {p : Prop} [Decidable p] (hx : p → Suits previous rest x)
    (hy : Suits previous rest y) : Suits previous rest (if p then x else y) :=
  iteInduction hx fun _ => hy

/-- A lexeme of another kind. -/
lemma suits_ok {k : Kind} (hproperty : k ≠ .property) (hchild : k ≠ .childCombinator) (n : Nat) :
    Suits previous rest (.ok ⟨k, n⟩) := by
  rintro l ⟨⟩
  exact ⟨fun h => absurd h hproperty, fun h => absurd h hchild⟩

/-- There is no kind to suit in an error. -/
lemma suits_error (e : LexemeError) : Suits previous rest (.error e) :=
  fun _ h => nomatch h

/-- A selector with a prefix is not one of the kinds that need a neighbour. -/
lemma suits_selector (a : Char) (cs : List Char) : Suits previous rest (selector a cs) := by
  intro l h
  have hl := isSimpleSelector_of_selector h
  constructor
  all_goals
    intro hk
    rw [hk] at hl
    cases hl

/-- A keyword is not one of the kinds that need a neighbour. -/
lemma suits_keyword (table : Keyword.Table) (c : Char) (cs : List Char) :
    Suits previous rest (keyword table c cs) := by
  unfold keyword
  simp only
  split
  · exact suits_ok (by simp) (by simp) _
  · exact suits_error _

/-- A sign is a property only if it looks like one, with a colon behind its name. -/
lemma suits_minus : Suits previous rest (.ok (minus previous rest)) := by
  rintro l ⟨⟩
  unfold minus
  simp only
  split
  · rename_i h
    simp only [Bool.and_eq_true] at h
    exact ⟨fun _ => h.2, nofun⟩
  · exact ⟨nofun, nofun⟩

/-- A word is a property only in front of a colon. -/
lemma suits_word (c : Char) : Suits previous rest (word previous c rest) := by
  refine suits_ite (fun _ => suits_ok (by decide) (by decide) _) ?_
  refine suits_ite (fun _ => suits_ok (by decide) (by decide) _) ?_
  refine suits_ite (fun _ => suits_selector c rest) ?_
  refine suits_ite (fun hcolon => ?_) ?_
  · rintro l ⟨⟩
    exact ⟨fun _ => hcolon, nofun⟩
  · exact suits_ite (fun _ => suits_ok (by decide) (by decide) _)
      (suits_ok (by decide) (by decide) _)

/-- What starts with a hash sign is not one of the kinds that need a neighbour. -/
lemma suits_hash (cs : List Char) : Suits previous rest (hash previous cs) := by
  refine suits_ite (fun _ => suits_selector '#' cs) ?_
  refine suits_ite (fun _ => suits_ok (by decide) (by decide) _) ?_
  exact suits_ite (fun _ => suits_selector '#' cs) (suits_error _)

/-- A string is not one of the kinds that need a neighbour. -/
lemma suits_quotedString (quote : Char) (cs : List Char) :
    Suits previous rest (quotedString quote cs) := by
  unfold quotedString
  split
  · exact suits_ok (by decide) (by decide) _
  · exact suits_error _

/-- A punctuation mark is not one of the kinds that need a neighbour. -/
lemma suits_punctuation {c : Char} {k : Kind} (h : punctuation? c = some k) :
    Suits previous rest (.ok ⟨k, 0⟩) := by
  have hkind : ∀ k, k = .property ∨ k = .childCombinator → punctuation? c ≠ some k := by
    rintro k (rfl | rfl)
    all_goals
      unfold punctuation?
      repeat refine iteInduction (motive := (· ≠ some _)) (fun _ => by decide) fun _ => ?_
      exact Option.some_ne_none _ |>.symm
  exact suits_ok (fun hk => hkind k (.inl hk) h) (fun hk => hkind k (.inr hk) h) _

/-- In every branch of recognition property names and child combinators have their neighbours. -/
lemma suits_lexeme (table : Keyword.Table) (previous : Option Kind) (attached : Bool) (c : Char)
    (rest : List Char) : Suits previous rest (lexeme table previous attached c rest) := by
  unfold lexeme
  simp only
  split
  · rename_i hp
    exact suits_punctuation hp
  · refine suits_ite (fun _ => suits_minus) ?_
    refine suits_ite (fun _ => suits_ok (by decide) (by decide) _) ?_
    refine suits_ite (fun _ => suits_ok (by decide) (by decide) _) ?_
    refine suits_ite (fun _ => suits_keyword table c rest) ?_
    refine suits_ite (fun _ => ?_) ?_
    · rintro l ⟨⟩
      split_ifs with hselector
      · exact ⟨nofun, fun _ => hselector⟩
      · exact ⟨nofun, nofun⟩
    refine suits_ite (fun _ => suits_ite (fun _ => suits_selector c rest)
      (suits_ok (by decide) (by decide) _)) ?_
    refine suits_ite (fun _ => suits_ite (fun _ => suits_selector c rest)
      (suits_ok (by decide) (by decide) _)) ?_
    refine suits_ite (fun _ => suits_ite (fun _ => suits_ok (by decide) (by decide) _)
      (suits_error _)) ?_
    refine suits_ite (fun _ => suits_quotedString c rest) ?_
    refine suits_ite (fun _ => suits_ok (by decide) (by decide) _) ?_
    refine suits_ite (fun _ => suits_hash rest) ?_
    refine suits_ite (fun _ => suits_selector c rest) ?_
    exact suits_ite (fun _ => suits_word c) (suits_error _)

/-- A colon is more than a colon only behind a simple selector that it is attached to. -/
lemma attached_of_lexeme_colon {table : Keyword.Table} {attached : Bool} {l : Lexeme}
    (h : lexeme table previous attached ':' rest = .ok l) (hk : l.kind ≠ .colon) :
    previous.any Kind.isSimpleSelector = true ∧ attached = true := by
  have hcolon : lexeme table previous attached ':' rest =
      if previous.any Kind.isSimpleSelector && attached && startsState rest then selector ':' rest
      else .ok ⟨.colon, 0⟩ := rfl
  rw [hcolon] at h
  split_ifs at h with hstate
  · simp only [Bool.and_eq_true] at hstate
    exact hstate.1
  · cases h
    exact absurd rfl hk

end Suits

/-! ### Two steps -/

namespace Scanner

variable {table : Keyword.Table} {s s' : Scanner} {t : Token}

/-- Trivia does not start with a colon. -/
lemma head?_take_triviaSize (cs : List Char) :
    (cs.take (triviaSize none cs)).head? ≠ some ':' := by
  cases cs with
  | nil => simp
  | cons c rest =>
    by_cases hc : c = ':'
    · subst hc
      simp [triviaSize, isBlank, Comment.opens]
    · cases triviaSize none (c :: rest) <;> simp [hc]

/-- A step takes a lexeme with its text, or else something that does not start with a colon. -/
lemma next_cases (h : s.next table = .ok (t, s')) :
    ((t.kind = .descendantCombinator ∨ t.kind = .eof) ∧ t.text.toList.head? ≠ some ':') ∨
    ∃ a rest l, s.rest.drop (triviaSize none s.rest) = a :: rest ∧
      lexeme table s.previous (triviaSize none s.rest == 0) a rest = .ok l ∧
      t.kind = l.kind ∧ t.text = String.ofList (a :: rest.take l.more) ∧
      s'.rest = rest.drop l.more := by
  obtain ⟨c, hcut, htake⟩ := next_eq_ok h
  obtain ⟨rfl, rfl⟩ := Prod.mk.inj htake
  rcases cut_cases hcut with ⟨-, rfl⟩ | ⟨rfl, -⟩ | ⟨a, rest, l, hrest, hl, rfl⟩
  · refine .inl ⟨.inl rfl, ?_⟩
    rw [String.toList_ofList, List.drop_zero]
    exact head?_take_triviaSize s.rest
  · exact .inl ⟨.inr rfl, by simp⟩
  · refine .inr ⟨a, rest, l, hrest, hl, rfl, ?_, ?_⟩
    · simp only [hrest, List.take_succ_cons]
    · simp only [← List.drop_drop, hrest, List.drop_succ_cons]

/-- Spaces and tabs stand before the colon that follows. -/
lemma exists_colon {cs : List Char} (h : colonFollows cs = true) :
    ∃ blanks more, cs = blanks ++ ':' :: more ∧ Trivia blanks := by
  unfold colonFollows at h
  have hsplit := List.takeWhile_append_dropWhile (p := fun c => c == ' ' || c == '\t') (l := cs)
  obtain ⟨more, hmore⟩ : ∃ more, cs.dropWhile (fun c => c == ' ' || c == '\t') = ':' :: more := by
    split at h
    · cases h
    · rename_i more _ hdrop
      exact ⟨more, hdrop⟩
    · cases h
  rw [hmore] at hsplit
  refine ⟨_, more, hsplit.symm, trivia_of_isBlank fun c hc => ?_⟩
  have hblank := List.mem_takeWhile_imp hc
  simp only [isBlank, hblank, Bool.true_or]

/-- Behind a property name the next token is a colon. -/
lemma next_of_colonFollows (table : Keyword.Table) (hprevious : s.previous = some .property)
    (h : colonFollows s.rest = true) : ∃ u s', s.next table = .ok (u, s') ∧ u.kind = .colon := by
  obtain ⟨blanks, more, hrest, hblanks⟩ := exists_colon h
  have hsize : triviaSize none s.rest = blanks.length := by
    rw [hrest, hblanks.triviaSize_append]
    exact Nat.zero_add _
  have hdrop : s.rest.drop (triviaSize none s.rest) = ':' :: more := by
    rw [hsize, hrest, List.drop_left]
  have hjoins : s.joinsSelectors (triviaSize none s.rest) = false := by
    simp [joinsSelectors, hprevious, Kind.isSimpleSelector]
  have hlexeme (attached : Bool) :
      lexeme table s.previous attached ':' more = .ok ⟨.colon, 0⟩ := by
    rw [hprevious]
    rfl
  have hcut : s.cut table = .ok ⟨.colon, triviaSize none s.rest, 1⟩ := by
    simp [cut, hjoins, hdrop, hlexeme]
  have hnext : s.next table = .ok (s.take ⟨.colon, triviaSize none s.rest, 1⟩) := by
    rw [next, hcut]
    rfl
  exact ⟨_, _, hnext, rfl⟩

/-- A token stops where the scanner goes on. -/
lemma stop_of_next (h : s.next table = .ok (t, s')) :
    t.span.stop = min s'.offset Span.maxOffset := by
  obtain ⟨c, -, htake⟩ := next_eq_ok h
  obtain ⟨rfl, rfl⟩ := Prod.mk.inj htake
  rfl

/-- A token that no trivia stands before starts where the scanner stands. -/
lemma start_of_next (h : s.next table = .ok (t, s')) (hnone : triviaSize none s.rest = 0) :
    t.span.start = min s.offset Span.maxOffset := by
  obtain ⟨c, hcut, htake⟩ := next_eq_ok h
  obtain ⟨rfl, -⟩ := Prod.mk.inj htake
  have hgap : c.gap = 0 := by
    rcases cut_cases hcut with ⟨-, rfl⟩ | ⟨rfl, -⟩ | ⟨a, rest, l, -, -, rfl⟩
    · rfl
    · exact hnone
    · exact hnone
  simp only [hgap]
  rfl

end Scanner

/-! ### Tokens of a text -/

section Tokens

variable {table : Keyword.Table} {s : Scanner} {before after : List Token} {t : Token}

/-- Where the token before matters, there is one, and the scanner has gone on from it. -/
lemma exists_last_of_run (h : (s.run table).tokens = before ++ t :: after)
    (hs : s.previous = none) :
    ∃ s₁ s₂ : Scanner, s₁.next table = .ok (t, s₂) ∧
      s₂.run table = ⟨after, (s.run table).ending⟩ ∧
      (s₁.previous.any Kind.isSimpleSelector = true → ∃ a ∈ before.getLast?,
        a.kind.isSimpleSelector = true ∧ a.span.stop = min s₁.offset Span.maxOffset) := by
  rcases List.eq_nil_or_concat' before with rfl | ⟨init, a, rfl⟩
  · obtain ⟨s', hnext, hrun⟩ := Scanner.next_of_run h
    refine ⟨s, s', hnext, hrun, fun hsimple => ?_⟩
    rw [hs] at hsimple
    cases hsimple
  · rw [List.append_assoc, List.singleton_append] at h
    obtain ⟨s₀, s₁, hlast, -, hrun⟩ := Scanner.exists_next_of_run h
    obtain ⟨s₂, hnext, hrun'⟩ := Scanner.next_of_run (congrArg Tokenization.tokens hrun)
    refine ⟨s₁, s₂, hnext, ?_, fun hsimple => ⟨a, ?_, ?_, Scanner.stop_of_next hlast⟩⟩
    · rw [hrun', hrun]
    · exact List.getLast?_concat
    · rw [Scanner.previous_of_next hlast] at hsimple
      exact hsimple

/-- Behind each property there is a colon. -/
lemma property_of_tokenize {source : String}
    (h : (tokenize table source).tokens = before ++ t :: after) (hk : t.kind = .property) :
    ∃ u ∈ after.head?, u.kind = .colon := by
  obtain ⟨s₁, s₂, hnext, hrun, -⟩ := exists_last_of_run h rfl
  rcases Scanner.next_cases hnext with ⟨hkind, -⟩ | ⟨a, rest, l, -, hl, hkind, -, hrest⟩
  · simp [hk] at hkind
  · have hcolon : colonFollows s₂.rest = true := by
      rw [hrest]
      exact (suits_lexeme table _ _ a rest hl).1 (hkind.symm.trans hk)
    have hprevious : s₂.previous = some .property := by
      rw [Scanner.previous_of_next hnext, hk]
    obtain ⟨u, s₃, hu, hkind⟩ := Scanner.next_of_colonFollows table hprevious hcolon
    have hnot : u.kind ≠ .eof := by
      rw [hkind]
      decide
    rw [Scanner.run_eq, hu] at hrun
    simp only [hnot, if_false] at hrun
    have hafter : u :: (s₃.run table).tokens = after := congrArg Tokenization.tokens hrun
    exact ⟨u, by rw [← hafter]; rfl, hkind⟩

/-- Before each child combinator there is a simple selector. -/
lemma child_of_tokenize {source : String}
    (h : (tokenize table source).tokens = before ++ t :: after) (hk : t.kind = .childCombinator) :
    ∃ a ∈ before.getLast?, a.kind.isSimpleSelector = true := by
  obtain ⟨s₁, s₂, hnext, -, hlast⟩ := exists_last_of_run h rfl
  rcases Scanner.next_cases hnext with ⟨hkind, -⟩ | ⟨a, rest, l, -, hl, hkind, -, -⟩
  · simp [hk] at hkind
  · have hsimple := (suits_lexeme table _ _ a rest hl).2 (hkind.symm.trans hk)
    obtain ⟨b, hlast, hb, -⟩ := hlast hsimple
    exact ⟨b, hlast, hb⟩

/-- A selector that starts with a colon stands right behind a simple selector. -/
lemma state_of_tokenize {source : String}
    (h : (tokenize table source).tokens = before ++ t :: after)
    (htext : t.text.toList.head? = some ':') (hk : t.kind ≠ .colon) :
    ∃ a ∈ before.getLast?, a.kind.isSimpleSelector = true ∧ a.span.stop = t.span.start := by
  obtain ⟨s₁, s₂, hnext, -, hlast⟩ := exists_last_of_run h rfl
  rcases Scanner.next_cases hnext with ⟨-, hnot⟩ | ⟨a, rest, l, -, hl, hkind, ht, -⟩
  · exact absurd htext hnot
  · rw [ht, String.toList_ofList, List.head?_cons, Option.some.injEq] at htext
    subst htext
    rw [hkind] at hk
    obtain ⟨hsimple, hattached⟩ := attached_of_lexeme_colon hl hk
    obtain ⟨b, hlast, hb, hstop⟩ := hlast hsimple
    refine ⟨b, hlast, hb, ?_⟩
    rw [hstop, Scanner.start_of_next hnext (eq_of_beq hattached)]

end Tokens

end Token

namespace Sheet

open Token (tokenize)

/-! ### Windows -/

/-- A colon follows every property name. -/
def Linked (ts : List Token) : Prop :=
  ∀ ⦃before after : List Token⦄ ⦃t : Token⦄, ts = before ++ t :: after → t.kind = .property →
    ∃ u ∈ after.head?, u.kind = .colon

section Linked

variable {a : Token} {ts : List Token}

/-- Tokens stay linked when the first one is dropped. -/
lemma Linked.tail (h : Linked (a :: ts)) : Linked ts := by
  rintro before after t rfl hk
  exact h (List.cons_append (a := a)).symm hk

/-- Tokens stay linked when one that is no property is added at the end. -/
lemma Linked.concat (h : Linked ts) (ha : a.kind ≠ .property) : Linked (ts ++ [a]) := by
  intro before after t hts hk
  rcases List.eq_nil_or_concat' after with rfl | ⟨after', last, rfl⟩
  · obtain ⟨-, hlast⟩ := List.append_inj' hts rfl
    obtain ⟨rfl, -⟩ := List.cons.inj hlast
    exact absurd hk ha
  · rw [← List.cons_append, ← List.append_assoc] at hts
    obtain ⟨hinit, -⟩ := List.append_inj' hts rfl
    obtain ⟨u, hhead, hu⟩ := h hinit hk
    exact ⟨u, List.mem_head?_append_of_mem_head? hhead, hu⟩

end Linked

namespace Cursor

variable {s t : Cursor}

/-- The tokens that a window shows, and those behind them. -/
def tokens (s : Cursor) : List Token := s.current :: s.ahead :: s.later

/-- A step keeps the tokens of the window linked. -/
lemma linked_advance (h : Linked s.tokens) (hnext : s.advance = .ok t) : Linked t.tokens := by
  rcases s with ⟨before, current, ahead, _ | ⟨u, later⟩, e | span⟩
  · cases hnext
  · cases hnext
    exact h.tail.concat nofun
  · cases hnext
    exact h.tail
  · cases hnext
    exact h.tail

/-- Steps keep the tokens of the window linked. -/
lemma linked_takes {used : List Token} (h : Linked s.tokens) (htakes : Window.Takes s used t) :
    Linked t.tokens :=
  htakes.invariant (fun _ t => Linked t.tokens) h fun hlinked _ hnext =>
    linked_advance hlinked hnext

/-- The first window on linked tokens is linked. -/
lemma linked_ofTokens {ts : Token.Tokenization} (hts : Linked ts.tokens)
    (h : Cursor.ofTokens ts = .ok s) : Linked s.tokens := by
  rcases ts with ⟨_ | ⟨a, _ | ⟨b, later⟩⟩, e | span⟩
  · cases h
  · cases h
    exact (hts.concat (a := .endOfInput span) nofun).concat nofun
  · cases h
  · cases h
    exact hts.concat nofun
  · cases h
    exact hts
  · cases h
    exact hts

end Cursor

/-- At a property name before a colon a statement is a declaration. -/
lemma statement_of_property {σ : Type} [Window σ] {s : σ}
    (hk : (Window.current s).kind = .property) (hahead : (Window.ahead s).kind = .colon)
    (inner : Span → Reading σ (List Stmt)) : statement inner s = (some <$> declaration) s := by
  rw [statement, Reading.bind_window, hk]
  exact congrFun (if_pos hahead) s

/-- A colon follows every property name right away, right before a child combinator stands a simple
selector, and so does right before a token that starts with a colon but is none, and that selector
stops where the token starts.  So whenever reading comes to a property name, a statement there is a
declaration. -/
theorem neighbours_tokenize (table : Keyword.Table) (source : String) :
    (∀ (before after : List Token) (t : Token),
      (tokenize table source).tokens = before ++ t :: after →
      (t.kind = .property → ∃ u ∈ after.head?, u.kind = .colon) ∧
      (t.kind = .childCombinator → ∃ a ∈ before.getLast?, a.kind.isSimpleSelector = true) ∧
      (t.text.toList.head? = some ':' → t.kind ≠ .colon → ∃ a ∈ before.getLast?,
        a.kind.isSimpleSelector = true ∧ a.span.stop = t.span.start)) ∧
    ∀ (start s : Stream) (used : List Token),
      Stream.ofText table source = .ok start → Window.Takes start used s →
      s.current.kind = .property →
        s.ahead.kind = .colon ∧ ∀ inner, statement inner s = (some <$> declaration) s := by
  constructor
  · intro before after t h
    exact ⟨Token.property_of_tokenize h, Token.child_of_tokenize h, Token.state_of_tokenize h⟩
  · intro start s used hstart htakes hk
    rcases follows_ofText table source with ⟨e, -, he⟩ | ⟨c, start', hc, hstart', hfollows⟩
    · cases hstart.symm.trans he
    · cases hstart.symm.trans hstart'
      obtain ⟨d, hd, hfollows'⟩ := hfollows.takes htakes
      have hlinked : Linked d.tokens := Cursor.linked_takes
        (Cursor.linked_ofTokens (fun _ _ _ h => Token.property_of_tokenize h) hc) hd
      rw [← hfollows'.current] at hk
      obtain ⟨u, hu, hcolon⟩ := hlinked (List.nil_append _).symm hk
      obtain rfl := Option.some.inj hu
      rw [hfollows'.current] at hk
      rw [hfollows'.ahead] at hcolon
      exact ⟨hcolon, statement_of_property hk hcolon⟩

/-- A property name with a blank behind it, a child combinator, and a state of the parent. -/
def attachedText : String := "x :1;A>&:hover\x7b\x7d"

/-- Its tokens before the end of the input. -/
def attachedTokens : List Token :=
  [⟨.property, "x", ⟨0, 1⟩⟩, ⟨.colon, ":", ⟨2, 3⟩⟩, ⟨.number, "1", ⟨3, 4⟩⟩,
    ⟨.semicolon, ";", ⟨4, 5⟩⟩, ⟨.typeSelector, "A", ⟨5, 6⟩⟩, ⟨.childCombinator, ">", ⟨6, 7⟩⟩,
    ⟨.parentReference, "&", ⟨7, 8⟩⟩, ⟨.stateSelector, ":hover", ⟨8, 14⟩⟩,
    ⟨.leftBrace, "\x7b", ⟨14, 15⟩⟩, ⟨.rightBrace, "\x7d", ⟨15, 16⟩⟩]

/-- All three kinds of neighbours occur in one text. -/
theorem neighbours_tokenize_attachedText :
    (tokenize .builtin attachedText).tokens = attachedTokens ∧
    (∀ (before after : List Token) (t : Token), attachedTokens = before ++ t :: after →
      (t.kind = .property → ∃ u ∈ after.head?, u.kind = .colon) ∧
      (t.kind = .childCombinator → ∃ a ∈ before.getLast?, a.kind.isSimpleSelector = true) ∧
      (t.text.toList.head? = some ':' → t.kind ≠ .colon → ∃ a ∈ before.getLast?,
        a.kind.isSimpleSelector = true ∧ a.span.stop = t.span.start)) ∧
    ∃ s : Stream, Stream.ofText .builtin attachedText = .ok s ∧
      s.current.kind = .property ∧ ∀ inner, statement inner s = (some <$> declaration) s := by
  have hall : (tokenize .builtin attachedText).all =
      .ok (attachedTokens ++ [.endOfInput ⟨16, 16⟩]) := by decide +kernel
  obtain ⟨stop, hstop, hsplit⟩ := Token.Tokenization.exists_ending_of_all hall
  have htokens : (tokenize .builtin attachedText).tokens = attachedTokens :=
    (List.append_inj' hsplit rfl).1.symm
  refine ⟨htokens, ?_, ?_⟩
  · intro before after t h
    exact (neighbours_tokenize .builtin attachedText).1 before after t (htokens.trans h)
  · have hread : (Stream.ofText .builtin attachedText).toOption.any
        (fun s => s.current.kind == .property) = true := by decide +kernel
    cases hs : Stream.ofText .builtin attachedText with
    | ok s =>
      rw [hs] at hread
      have hk : s.current.kind = .property := eq_of_beq hread
      exact ⟨s, rfl, hk, ((neighbours_tokenize .builtin attachedText).2 s s [] hs (.refl s) hk).2⟩
    | error e =>
      rw [hs] at hread
      cases hread

end Sheet

end StyleSheet

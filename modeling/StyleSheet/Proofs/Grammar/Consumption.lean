import StyleSheet.Proofs.Grammar.Streaming

/-!
# How far readings go

A reading of an expression or of a statement that succeeds has taken at least one token, and it has
taken tokens one by one, none of them the end of the input (`Window.Takes`).

That a reading makes no step at the end of the input is a statement on steps whose result nobody
sees.  It is tested with a trap: behind the end of the input there is an error of the scanner, which
ends every reading that makes a step there (`Cursor.trapped`).  No reading meets it.

For a text this bounds the tokens that reading takes from the scanner, which a log tells.
-/

namespace StyleSheet.Sheet

open Window (Takes)
open Token (ScanError)

/-! ### A trap behind the end of the input -/

/-- The window on some tokens with an error of the scanner behind the end of the input. -/
def Cursor.trapped (trap : ScanError) (before stop : Span) : List Token → Cursor
  | [] => ⟨before, .endOfInput stop, .endOfInput stop, [], .error trap⟩
  | [a] => ⟨before, a, .endOfInput stop, [.endOfInput stop], .error trap⟩
  | a :: b :: later =>
    ⟨before, a, b, later ++ [.endOfInput stop, .endOfInput stop], .error trap⟩

section Trap

variable {trap : ScanError} {before stop : Span}

/-- A step before the end of the input does not. -/
lemma Cursor.advance_trapped_cons (a : Token) (ts : List Token) :
    Window.advance (Cursor.trapped trap before stop (a :: ts)) =
      .ok (Cursor.trapped trap a.span stop ts) := by
  rcases ts with _ | ⟨b, _ | ⟨c, later⟩⟩ <;> rfl

/-- Steps before the end of the input lead to windows on some of the tokens. -/
lemma Cursor.exists_trapped_of_takes {ts used : List Token} {t : Cursor}
    (h : Takes (Cursor.trapped trap before stop ts) used t) :
    ∃ before' rest, t = Cursor.trapped trap before' stop rest := by
  refine h.invariant (fun _ t => ∃ before' rest, t = .trapped trap before' stop rest)
    ⟨before, ts, rfl⟩ ?_
  rintro _ _ u ⟨before', rest, rfl⟩ hne hu
  cases rest with
  | nil => exact absurd rfl hne
  | cons a rest =>
    rw [Cursor.advance_trapped_cons] at hu
    cases hu
    exact ⟨a.span, rest, rfl⟩

/-- No step before the end of the input runs into the trap. -/
lemma Cursor.advance_trapped_ne_error {ts used : List Token} {t : Cursor} {e : ScanError}
    (h : Takes (Cursor.trapped trap before stop ts) used t) (hne : (Window.current t).kind ≠ .eof) :
    Window.advance t ≠ .error e := by
  obtain ⟨before', rest, rfl⟩ := Cursor.exists_trapped_of_takes h
  cases rest with
  | nil => exact absurd rfl hne
  | cons a rest =>
    rw [Cursor.advance_trapped_cons]
    exact nofun

/-- No reading that stays before the end of the input runs into the trap. -/
lemma ne_scan_of_ends {α : Type} {ts : List Token} {hungry : Prop} {m : Nat}
    {good : Unit → α → Prop}
    {r : Reply Cursor α} (h : r.Ends (steps (Cursor.trapped trap before stop ts)) hungry m () good)
    (e : ScanError) (t : Cursor) : r ≠ .failed (.scan e) t := by
  intro hr
  obtain ⟨used, c, hused, hne, hc⟩ := advance_of_ends_scan h hr
  exact Cursor.advance_trapped_ne_error hused hne hc

end Trap

/-- A window on tokens before the end of the input, beside one that shows two tokens for the end and
then fails. -/
def twoEnds (span : Span) (trap : ScanError) : Pairing Cursor Cursor where
  Pair c d := ∃ before tokens, c = Cursor.on before span tokens ∧
    d = Cursor.trapped trap before span tokens
  spans := id
  Stop _ := False
  merge := keepsMerge_id
  before := by
    rintro _ _ ⟨before, tokens, rfl, rfl⟩
    rcases tokens with _ | ⟨x, _ | ⟨y, tokens⟩⟩ <;> rfl
  current := by
    rintro _ _ ⟨before, tokens, rfl, rfl⟩
    rcases tokens with _ | ⟨x, _ | ⟨y, tokens⟩⟩ <;> rfl
  ahead := by
    rintro _ _ ⟨before, tokens, rfl, rfl⟩
    rcases tokens with _ | ⟨x, _ | ⟨y, tokens⟩⟩ <;> rfl
  size_le := by
    rintro _ _ ⟨before, tokens, rfl, rfl⟩
    rcases tokens with _ | ⟨x, _ | ⟨y, tokens⟩⟩
    · exact Nat.le_refl _
    · exact Nat.le_add_right _ 1
    · exact Nat.add_le_add_left (List.sublist_append_left tokens _).length_le _
  advance := by
    rintro _ _ ⟨before, tokens, rfl, rfl⟩ hne
    cases tokens with
    | nil => exact absurd rfl hne
    | cons a tokens =>
      rw [Cursor.advance_on_cons, Cursor.advance_trapped_cons]
      exact .inr (.inr ⟨_, _, rfl, rfl, a.span, tokens, rfl, rfl⟩)

/-- With a trap behind the end of the input tokens are read in the same way. -/
lemma ofTokens_trapped (tokens : List Token) (span : Span) (trap : ScanError) :
    ofTokens ⟨tokens ++ [.endOfInput span, .endOfInput span], .error trap⟩ =
      ofTokens ⟨tokens, .ok span⟩ := by
  have htrapped : ofTokens ⟨tokens ++ [.endOfInput span, .endOfInput span], .error trap⟩ =
      ofWindow (Cursor.trapped trap ⟨0, 0⟩ span tokens) := by
    rcases tokens with _ | ⟨x, _ | ⟨y, tokens⟩⟩ <;> rfl
  rw [htrapped, ofTokens_eq_ofWindow rfl]
  have hpair : (twoEnds span trap).Pair (Cursor.on ⟨0, 0⟩ span tokens)
      (Cursor.trapped trap ⟨0, 0⟩ span tokens) := ⟨_, tokens, rfl, rfl⟩
  rcases (twoEnds span trap).ofWindow_of_pair hpair with ⟨_, hstop, -⟩ | hsame
  · exact hstop.elim
  · have hid : Sheet.mapSpans id _ = Sheet.mapSpans id _ := hsame
    rw [mapSpans_id, mapSpans_id] at hid
    exact hid.symm

/-! ### Whole texts -/

/-- The window takes two tokens beyond those that are read. -/
lemma length_pulled_le (table : Keyword.Table) (source : String) :
    (Logged.ofText table source).1.pulled.length ≤
      (Token.tokenize table source).tokens.length + 2 := by
  rcases (isPrefix_log table source).1 with hprefix | ⟨span, -, hprefix⟩
  · exact Nat.le_add_right_of_le hprefix.length_le
  · have hle := hprefix.length_le
    rwa [List.length_append] at hle

/-- A text that is a sheet is read by taking each of its tokens once. -/
lemma takes_of_ofText_eq_ok {table : Keyword.Table} {source : String} {sheet : Sheet}
    (h : ofText table source = .ok sheet) :
    ∃ s t, Stream.ofText table source = .ok s ∧
      statementsUpTo (Window.size s + 1) none s = .ok sheet t ∧
      Takes s (Token.tokenize table source).tokens t := by
  obtain ⟨s, t, hs, ht⟩ := ofText_eq_ok.mp h
  have hends := (steps s).ends_statementsUpTo (.blind _) (Window.size s + 1) (at_steps s)
  obtain ⟨used, hused, -⟩ := takes_of_ends hends ht
  have hend := Window.isAtEnd_iff.mp (isAtEnd_of_statementsUpTo ht)
  obtain ⟨-, -, rfl⟩ := Stream.tokens_of_takes_eof hs hused hend
  exact ⟨s, t, hs, ht, hused⟩

/-- Reading comes to an end before the input does.

A statement or an expression that is read takes at least one token and never the end of the input,
whatever the window is.  With a trap behind the end of the input no reading runs into it, so none
makes a step there.  Reading a window is not starved, so it ends with a sheet or an error, and with
the trap a text is read in the same way.  The tokens that leave the window are the first before the
end of the input, and for its window of two reading takes at most two more from the scanner.  If it
ends with a sheet, it has taken exactly those before the end. -/
theorem reading_ends_before_input :
    (∀ (σ : Type) [Window σ] (s : σ) (n : Nat),
      (∀ floor e t, expressionUpTo n floor s = .ok e t → ∃ used, used ≠ [] ∧ Takes s used t) ∧
      (∀ r t, statement (blockUpTo n) s = .ok r t → ∃ used, used ≠ [] ∧ Takes s used t) ∧
      statementsUpTo (Window.size s + 1) none s ≠ .starved) ∧
    (∀ (trap : ScanError) (before stop : Span) (ts : List Token) (n : Nat) (e : ScanError)
      (t : Cursor),
      (∀ floor, expressionUpTo n floor (Cursor.trapped trap before stop ts) ≠
        .failed (.scan e) t) ∧
      statement (blockUpTo n) (Cursor.trapped trap before stop ts) ≠ .failed (.scan e) t ∧
      ∀ enclosing, statementsUpTo n enclosing (Cursor.trapped trap before stop ts) ≠
        .failed (.scan e) t) ∧
    ∀ (table : Keyword.Table) (source : String),
      (∀ span trap, (Token.tokenize table source).ending = .ok span →
        ofTokens ⟨(Token.tokenize table source).tokens ++
          [.endOfInput span, .endOfInput span], .error trap⟩ = ofText table source) ∧
      (∃ log, Logged.ofText table source = (log, ofText table source) ∧
        log.taken <+: (Token.tokenize table source).tokens ∧
        log.pulled.length ≤ (Token.tokenize table source).tokens.length + 2) ∧
      ∀ sheet, ofText table source = .ok sheet →
        ∃ s t, Stream.ofText table source = .ok s ∧
          statementsUpTo (Window.size s + 1) none s = .ok sheet t ∧
          Takes s (Token.tokenize table source).tokens t := by
  refine ⟨fun σ _ s n => ⟨fun floor e t => takes_of_expressionUpTo, fun r t => takes_of_statement,
    statementsUpTo_ne_starved (Nat.lt_succ_self _)⟩, fun trap before stop ts n e t => ?_,
    fun table source => ⟨fun span trap h => ?_, ?_, fun sheet => takes_of_ofText_eq_ok⟩⟩
  · let s := Cursor.trapped trap before stop ts
    have hat := at_steps s
    refine ⟨fun floor => ?_, ?_, fun enclosing => ?_⟩
    · exact ne_scan_of_ends ((steps s).ends_expressionUpTo (.blind _) n floor hat) e t
    · exact ne_scan_of_ends ((steps s).ends_statement (.blind _) n hat) e t
    · cases enclosing with
      | none => exact ne_scan_of_ends ((steps s).ends_statementsUpTo (.blind _) n hat) e t
      | some opened =>
        -- any token may have opened the braces
        have ho : (steps s).Tok () ⟨.leftBrace, "", opened⟩ := trivial
        exact ne_scan_of_ends ((steps s).ends_bodyUpTo (.blind _) n ho rfl hat .refl) e t
  · rw [ofTokens_trapped, ofText_eq_ofTokens, ← h]
  · refine ⟨(Logged.ofText table source).1, ?_, (isPrefix_log table source).2,
      length_pulled_le table source⟩
    rw [← Logged.ofText_snd]

/-- A text that ends inside of parentheses. -/
def unfinishedText : String := "A\x7bx:(1"

/-- `-$a` -/
def minusTokens : List Token := [⟨.minus, "-", ⟨0, 1⟩⟩, ⟨.variableName, "$a", ⟨1, 3⟩⟩]

/-- All six tokens of a sheet are taken, and both of `-$a`.  In front of the trap a text that is not
finished is read up to the end of the input, and from the scanner it takes no more than its six
tokens and two for the end. -/
theorem reading_ends_before_input_unfinishedText :
    (∃ (s t : Stream) (sheet : Sheet), statementsUpTo (Window.size s + 1) none s = .ok sheet t ∧
      Takes s (Token.tokenize .builtin "A\x7bx:1\x7d").tokens t ∧
      (Token.tokenize .builtin "A\x7bx:1\x7d").tokens.length = 6) ∧
    (∃ e t used, expressionUpTo 3 .lowest (Cursor.on ⟨0, 0⟩ ⟨3, 3⟩ minusTokens) = .ok e t ∧
      used ≠ [] ∧ Takes (Cursor.on ⟨0, 0⟩ ⟨3, 3⟩ minusTokens) used t) ∧
    (∀ trap t, statementsUpTo 9 none
      (Cursor.trapped trap ⟨0, 0⟩ ⟨6, 6⟩ (Token.tokenize .builtin unfinishedText).tokens) ≠
        .failed (.scan trap) t) ∧
    ∃ log, Logged.ofText .builtin unfinishedText = (log, ofText .builtin unfinishedText) ∧
      log.pulled.length ≤ 8 := by
  obtain ⟨htakes, htrap, htext⟩ := reading_ends_before_input
  refine ⟨?_, ?_, fun trap t => (htrap trap _ _ _ 9 trap t).2.2 none, ?_⟩
  · have hok : (ofText .builtin "A\x7bx:1\x7d").isOk = true := by decide +kernel
    have hlength : (Token.tokenize .builtin "A\x7bx:1\x7d").tokens.length = 6 := by decide +kernel
    cases hread : ofText .builtin "A\x7bx:1\x7d" with
    | ok sheet =>
      obtain ⟨s, t, -, hstatements, hall⟩ := (htext .builtin "A\x7bx:1\x7d").2.2 sheet hread
      exact ⟨s, t, sheet, hstatements, hall, hlength⟩
    | error e =>
      rw [hread] at hok
      cases hok
  · have hread : expressionUpTo 3 .lowest (Cursor.on ⟨0, 0⟩ ⟨3, 3⟩ minusTokens) =
        .ok (.negate (.var "$a" ⟨1, 3⟩) ⟨0, 3⟩) (.on ⟨1, 3⟩ ⟨3, 3⟩ []) := rfl
    obtain ⟨used, hne, hused⟩ := (htakes _ _ 3).1 .lowest _ _ hread
    exact ⟨_, _, used, hread, hne, hused⟩
  · have hlength : (Token.tokenize .builtin unfinishedText).tokens.length = 6 := by decide +kernel
    obtain ⟨log, hlog, -, hle⟩ := (htext .builtin unfinishedText).2.1
    rw [hlength] at hle
    exact ⟨log, hlog, hle⟩

end StyleSheet.Sheet

import Mathlib
import StyleSheet.Proofs.Grammar.Acceptance
import StyleSheet.Proofs.Grammar.Steps
import StyleSheet.Proofs.Grammar.Trees
import StyleSheet.Proofs.Scanning.Lossless

/-!
# Tokens that are taken while reading

A sheet is read from tokens that a scanner yields one by one, as far as reading asks for them.  A
log of them is kept beside the window (`Logged`), and it changes nothing of what is read.  The
tokens in the log are related to those of the whole text: they are the first of them, all of them if
the text is a sheet, and an error of the scanner shows only if reading does not fail before
(`ofText_agrees_with_tokenize`).

Two things are not as one might think.  The window is filled with two tokens, so that the end of the
input is taken twice.  And offsets of more than 32 bits are cut off, so that an error far out in a
text has the same start as others behind it.
-/

namespace StyleSheet

/-! ### Taking tokens from a scanner -/

namespace Token.Scanner

/-- Steps of a scanner that yield the tokens. -/
def Pulls (table : Keyword.Table) (s : Scanner) : List Token → Scanner → Prop
  | [], s' => s = s'
  | t :: ts, s' => ∃ mid, s.next table = .ok (t, mid) ∧ mid.Pulls table ts s'

variable {table : Keyword.Table} {s s' s'' : Scanner} {t : Token} {ts us : List Token}

/-- One more step yields one more token. -/
lemma Pulls.step (h : s.Pulls table ts s') (hnext : s'.next table = .ok (t, s'')) :
    s.Pulls table (ts ++ [t]) s'' := by
  induction ts generalizing s with
  | nil =>
    obtain rfl : s = s' := h
    exact ⟨s'', hnext, rfl⟩
  | cons u ts ih =>
    obtain ⟨mid, hmid, hts⟩ := h
    exact ⟨mid, hmid, ih hts⟩

/-- A scanner yields step by step what it yields all at once: the first of its tokens, or all of
them and the end of the input, however often. -/
lemma Pulls.isPrefix_or (h : s.Pulls table ts s') : ts <+: (s.run table).tokens ∨
    ∃ span n, (s.run table).ending = .ok span ∧
      ts = (s.run table).tokens ++ List.replicate n (.endOfInput span) := by
  induction ts generalizing s with
  | nil => exact .inl List.nil_prefix
  | cons t ts ih =>
    obtain ⟨mid, hmid, hts⟩ := h
    rcases s.run_cases table with
      ⟨e, hnext, -⟩ | ⟨span, _, hnext, hrun, hagain⟩ | ⟨u, _, hnext, -, hrun⟩
    · cases hmid.symm.trans hnext
    · cases hmid.symm.trans hnext
      rw [hrun]
      have hmore := ih hts
      rw [hagain] at hmore
      rcases hmore with hnil | ⟨_, n, hspan, hts⟩
      · rw [List.prefix_nil.mp hnil]
        exact .inr ⟨span, 1, rfl, rfl⟩
      · cases hspan
        rw [hts]
        exact .inr ⟨span, n + 1, rfl, rfl⟩
    · cases hmid.symm.trans hnext
      rw [hrun]
      rcases ih hts with hprefix | ⟨span, n, hspan, hts⟩
      · exact .inl ((List.prefix_cons_inj _).mpr hprefix)
      · exact .inr ⟨span, n, hspan, congrArg (List.cons _) hts⟩

/-- A scanner that fails after some steps has yielded all the tokens that it yields at all. -/
lemma Pulls.run_eq (h : s.Pulls table ts s') {e : ScanError} (he : s'.next table = .error e) :
    s.run table = ⟨ts, .error e⟩ := by
  induction ts generalizing s with
  | nil =>
    obtain rfl : s = s' := h
    rw [Scanner.run_eq, he]
  | cons t ts ih =>
    obtain ⟨mid, hmid, hts⟩ := h
    rcases s.run_cases table with
      ⟨e, hnext, -⟩ | ⟨span, _, hnext, -, hagain⟩ | ⟨u, _, hnext, -, hrun⟩
    · cases hmid.symm.trans hnext
    · cases hmid.symm.trans hnext
      cases hagain.symm.trans (ih hts)
    · cases hmid.symm.trans hnext
      rw [hrun, ih hts]
      rfl

end Token.Scanner

/-! ### Tokens before an error -/

namespace Token.Scanner

open Text

/-- The offset that a span starts at, before it is cut off. -/
def StartsAt (sp : Span) (n : Nat) : Prop := sp.start = min n Span.maxOffset

/-- An error stands where the scanner stands or further on. -/
lemma exists_startsAt_of_next_error {table : Keyword.Table} {s : Scanner} {e : ScanError}
    (h : s.next table = .error e) :
    ∃ n, s.offset ≤ n ∧ n ≤ s.offset + byteLength s.rest ∧ StartsAt e.span n := by
  obtain ⟨a, rest, cause, -, -, rfl⟩ := next_eq_error h
  have hle : ∀ k, byteLength (s.rest.take k) ≤ byteLength s.rest := by
    intro k
    have hsplit := congrArg byteLength (List.take_append_drop k s.rest)
    rw [byteLength_append] at hsplit
    omega
  cases cause with
  | unknown more =>
    exact ⟨_, Nat.le_add_right _ _, Nat.add_le_add_left (hle _) _, rfl⟩
  | unterminated what before =>
    exact ⟨_, Nat.le_add_right _ _, Nat.add_le_add_left (hle _) _, rfl⟩

/-- A token before the end of the input starts before the scanner behind it stands. -/
lemma exists_startsAt_of_next {table : Keyword.Table} {s s' : Scanner} {t : Token}
    (h : s.next table = .ok (t, s')) (hk : t.kind ≠ .eof) :
    (∃ m, s.offset ≤ m ∧ m < s'.offset ∧ StartsAt t.span m) ∧
      s'.offset + byteLength s'.rest = s.offset + byteLength s.rest := by
  obtain ⟨c, hcut, htake⟩ := next_eq_ok h
  obtain rfl : (s.take c).1 = t := congrArg Prod.fst htake
  obtain rfl : (s.take c).2 = s' := congrArg Prod.snd htake
  refine ⟨⟨_, Nat.le_add_right _ (byteLength (s.rest.take c.gap)), ?_, rfl⟩, offset_add_take s c⟩
  obtain ⟨a, text, htext⟩ := List.exists_cons_of_ne_nil (take_ne_nil_of_cut hcut hk)
  obtain ⟨n, hlength, -⟩ := exists_byteLength_cons a text
  simp only [take, htext, hlength]
  omega

/-- All tokens before an error start before it does. -/
lemma exists_startsAt_of_ending (table : Keyword.Table) (s : Scanner) {e : ScanError}
    (h : (s.run table).ending = .error e) :
    ∃ n, s.offset ≤ n ∧ n ≤ s.offset + byteLength s.rest ∧ StartsAt e.span n ∧
      ∀ t ∈ (s.run table).tokens, ∃ m, m < n ∧ StartsAt t.span m := by
  rw [run_eq] at h ⊢
  rcases hnext : s.next table with e' | ⟨t, s'⟩
  · simp only [hnext] at h ⊢
    obtain rfl : e' = e := Except.error.inj h
    obtain ⟨n, hle, hge, hn⟩ := exists_startsAt_of_next_error hnext
    exact ⟨n, hle, hge, hn, fun t ht => absurd ht List.not_mem_nil⟩
  · simp only [hnext] at h ⊢
    by_cases hk : t.kind = .eof
    · rw [if_pos hk] at h
      cases h
    · rw [if_neg hk] at h ⊢
      obtain ⟨⟨m, hstart, hm, ht⟩, hsum⟩ := exists_startsAt_of_next hnext hk
      have hshorter : s'.rest.length < s.rest.length := next_rest_lt hnext hk
      obtain ⟨n, hle, hge, hn, htokens⟩ := exists_startsAt_of_ending table s' h
      have hfirst : ∃ m, m < n ∧ StartsAt t.span m := ⟨m, by omega, ht⟩
      exact ⟨n, by omega, by omega, hn, List.forall_mem_cons.mpr ⟨hfirst, htokens⟩⟩
termination_by s.rest.length

end Token.Scanner

namespace Sheet

open Token (ScanError Scanner)

/-! ### Windows on a text -/

namespace Stream

/-- Where the window on a text stands when some tokens have been taken: with the two that it shows
they are what the scanner has yielded. -/
structure Reached (table : Keyword.Table) (source : String) (used : List Token) (s : Stream) :
    Prop where
  table_eq : s.table = table
  pulls : (Scanner.ofText source).Pulls table (used ++ [s.current, s.ahead]) s.scanner

variable {table : Keyword.Table} {source : String} {used : List Token} {s t : Stream}

/-- At first nothing has been taken. -/
lemma Reached.start (h : Stream.ofText table source = .ok s) : Reached table source [] s := by
  rcases hcurrent : (Scanner.ofText source).next table with e | ⟨current, scanner⟩
  · rw [Stream.ofText, hcurrent] at h
    cases h
  · rw [Stream.ofText_of_next hcurrent] at h
    rcases hahead : scanner.next table with e | ⟨ahead, scanner'⟩
    · rw [hahead] at h
      cases h
    · rw [hahead] at h
      cases h
      exact ⟨rfl, scanner, hcurrent, scanner', hahead, rfl⟩

/-- A step takes the current token. -/
lemma Reached.advance (h : s.Reached table source used) (hnext : s.advance = .ok t) :
    t.Reached table source (used ++ [s.current]) := by
  obtain ⟨rfl, hpulls⟩ := h
  obtain ⟨next, scanner, hstep, rfl⟩ := Stream.exists_next_of_advance hnext
  have hpulled := hpulls.step hstep
  rw [List.append_assoc] at hpulled
  refine ⟨rfl, ?_⟩
  rw [List.append_assoc]
  exact hpulled

/-- Where tokens are taken from the first window, the window stands behind them. -/
lemma Reached.of_takes (h : s.Reached table source []) (htakes : Window.Takes s used t) :
    t.Reached table source used :=
  htakes.invariant (Reached table source) h fun hs _ hnext => hs.advance hnext

/-- The end of the input is taken at most twice if it does not leave the window. -/
lemma le_two_of_replicate {ts taken : List Token} {span : Span} {n : Nat} {a b : Token}
    (h : taken ++ [a, b] = ts ++ List.replicate n (.endOfInput span))
    (htaken : ∀ t ∈ taken, t.kind ≠ .eof) : n ≤ 2 := by
  by_contra hn
  obtain ⟨m, rfl⟩ : ∃ m, n = m + 1 + 2 := ⟨n - 3, by omega⟩
  rw [← List.replicate_append_replicate, ← List.append_assoc] at h
  obtain ⟨rfl, -⟩ := List.append_inj' h rfl
  refine htaken (.endOfInput span) (List.mem_append_right ts ?_) rfl
  exact List.mem_replicate.mpr ⟨Nat.succ_ne_zero m, rfl⟩

/-- The tokens up to those in the window are the first of the text, with at most two for the end of
the input. -/
lemma Reached.isPrefix (h : s.Reached table source used) (hused : ∀ t ∈ used, t.kind ≠ .eof) :
    used ++ [s.current, s.ahead] <+: (Token.tokenize table source).tokens ∨
      ∃ span, (Token.tokenize table source).ending = .ok span ∧
        used ++ [s.current, s.ahead] <+: (Token.tokenize table source).tokens ++
          [.endOfInput span, .endOfInput span] := by
  rcases h.pulls.isPrefix_or with hprefix | ⟨span, n, hspan, hall⟩
  · exact .inl hprefix
  · have hle := le_two_of_replicate hall hused
    refine .inr ⟨span, hspan, ?_⟩
    rw [hall]
    refine (List.prefix_append_right_inj _).mpr ⟨List.replicate (2 - n) (.endOfInput span), ?_⟩
    rw [List.replicate_append_replicate, Nat.add_sub_cancel' hle]
    rfl

/-- The tokens that have been taken are the first before the end of the input. -/
lemma Reached.isPrefix_used (h : s.Reached table source used)
    (hused : ∀ t ∈ used, t.kind ≠ .eof) : used <+: (Token.tokenize table source).tokens := by
  have hfirst : used <+: used ++ [s.current, s.ahead] := List.prefix_append _ _
  rcases h.pulls.isPrefix_or with hprefix | ⟨span, n, -, hall⟩
  · exact hfirst.trans hprefix
  · have hle := le_two_of_replicate hall hused
    have hlength := congrArg List.length hall
    simp only [List.length_append, List.length_cons, List.length_nil, List.length_replicate]
      at hlength
    refine List.prefix_of_prefix_length_le hfirst ⟨_, hall.symm⟩ ?_
    change _ ≤ (Scanner.run table (Scanner.ofText source)).tokens.length
    omega

/-- An error of the scanner that the window meets is the one that scanning meets. -/
lemma Reached.ending_of_advance_error (h : s.Reached table source used) {e : ScanError}
    (he : s.advance = .error e) : (Token.tokenize table source).ending = .error e := by
  obtain ⟨rfl, hpulls⟩ := h
  have hnext : s.scanner.next s.table = .error e := by
    unfold Stream.advance at he
    rcases hstep : s.scanner.next s.table with e' | ⟨next, scanner⟩
    · rw [hstep] at he
      cases he
      rfl
    · rw [hstep] at he
      cases he
  exact congrArg Token.Tokenization.ending (hpulls.run_eq hnext)

/-- Where the window shows the end of the input, all tokens before it have been taken, and the
window shows the end twice. -/
lemma Reached.of_isAtEnd (h : s.Reached table source used) (hused : ∀ t ∈ used, t.kind ≠ .eof)
    (hend : s.current.kind = .eof) :
    ∃ span, (Token.tokenize table source).ending = .ok span ∧
      used = (Token.tokenize table source).tokens ∧
      [s.current, s.ahead] = [.endOfInput span, .endOfInput span] := by
  -- no token before the end of the input is the one in the window
  have hnot : ∀ rest, (Token.tokenize table source).tokens ≠ used ++ s.current :: rest := by
    intro rest hrest
    have hmem : s.current ∈ (Token.tokenize table source).tokens := by
      rw [hrest]
      exact List.mem_append_right _ List.mem_cons_self
    exact (Token.readable_tokenize table source _ hmem).1 hend
  rcases h.pulls.isPrefix_or with ⟨more, hmore⟩ | ⟨span, n, hspan, hall⟩
  · rw [List.append_assoc] at hmore
    exact absurd hmore.symm (hnot _)
  · have hle := le_two_of_replicate hall hused
    refine ⟨span, hspan, ?_⟩
    match n, hle with
    | 0, _ =>
      rw [List.replicate_zero, List.append_nil] at hall
      exact absurd hall.symm (hnot _)
    | 1, _ =>
      have hone : used ++ [s.current] ++ [s.ahead] =
          (Token.tokenize table source).tokens ++ [.endOfInput span] := by
        rw [List.append_assoc]
        exact hall
      exact absurd (List.append_inj' hone rfl).1.symm (hnot _)
    | 2, _ => exact List.append_inj' hall rfl

/-- Reading a text gets to the end of the input only if scanning does, by taking all tokens before
it. -/
lemma tokens_of_takes_eof (hs : Stream.ofText table source = .ok s)
    (htakes : Window.Takes s used t) (hend : t.current.kind = .eof) :
    ∃ span, (Token.tokenize table source).ending = .ok span ∧
      used = (Token.tokenize table source).tokens := by
  obtain ⟨span, hspan, hall, -⟩ :=
    ((Reached.start hs).of_takes htakes).of_isAtEnd htakes.ne_eof hend
  exact ⟨span, hspan, hall⟩

end Stream

section Read

variable {table : Keyword.Table} {source : String}

/-- A text is a sheet if it is read as one from its first window on. -/
lemma ofText_eq_ok {sheet : Sheet} : ofText table source = .ok sheet ↔
    ∃ s t, Stream.ofText table source = .ok s ∧
      statementsUpTo (Window.size s + 1) none s = .ok sheet t := by
  unfold ofText
  cases Stream.ofText table source with
  | error e => simp
  | ok s => simp [ofWindow_eq_ok]

/-- A text that is not a sheet is refused by the scanner, or from its first window on. -/
lemma cases_of_ofText_eq_error {err : ReadError} (h : ofText table source = .error err) :
    (∃ e, err = .scan e) ∨ ∃ s t, Stream.ofText table source = .ok s ∧
      statementsUpTo (Window.size s + 1) none s = .failed err t := by
  unfold ofText at h
  split at h
  · rename_i s hs
    obtain ⟨t, ht⟩ := ofWindow_eq_error.mp h
    exact .inr ⟨s, t, hs, ht⟩
  · rename_i e hs
    exact .inl ⟨e, (Except.error.inj h).symm⟩

end Read

/-! ### Reading with a log -/

/-- The tokens that were taken from a scanner, and those of them that have left the window. -/
structure Log where
  pulled : List Token
  taken : List Token

/-- A window on a text with a log. -/
structure Logged where
  stream : Stream
  log : Log

namespace Logged

/-- The window one token further on.  The current token leaves the window, and the one that enters
it is taken from the scanner. -/
def advance (l : Logged) : Except ScanError Logged :=
  match l.stream.scanner.next l.stream.table with
  | .ok (next, scanner) =>
    .ok ⟨⟨l.stream.table, l.stream.current.span, l.stream.ahead, next, scanner⟩,
      ⟨l.log.pulled ++ [next], l.log.taken ++ [l.stream.current]⟩⟩
  | .error e => .error e

/-- Apart from the log, the window goes on as a stream does. -/
lemma advance_stream (l : Logged) : l.advance.map Logged.stream = l.stream.advance := by
  unfold advance Stream.advance
  rcases l.stream.scanner.next l.stream.table with e | ⟨next, scanner⟩ <;> rfl

/-- Where the window goes on, so does the stream in it. -/
lemma advance_stream_of_ok {l l' : Logged} (h : l.advance = .ok l') :
    Window.advance l.stream = .ok l'.stream := by
  change l.stream.advance = _
  rw [← advance_stream, h]
  rfl

instance : Window Logged where
  before l := l.stream.before
  current l := l.stream.current
  ahead l := l.stream.ahead
  advance := advance
  size l := l.stream.size
  before_of_advance h := Window.before_of_advance (advance_stream_of_ok h)
  current_of_advance h := Window.current_of_advance (advance_stream_of_ok h)
  size_lt_of_advance hne h := Window.size_lt_of_advance hne (advance_stream_of_ok h)

/-- Windows with a log beside the same windows without one. -/
def erasing : Pairing Logged Stream where
  Pair l s := l.stream = s
  spans := id
  Stop _ := False
  merge := keepsMerge_id
  before := by
    rintro l _ rfl
    rfl
  current := by
    rintro l _ rfl
    rfl
  ahead := by
    rintro l _ rfl
    rfl
  size_le := by
    rintro l _ rfl
    exact Nat.le_refl _
  advance := by
    rintro l _ rfl -
    have hstream := l.advance_stream
    change _ ∨ (∃ e, l.advance = .error e ∧ l.stream.advance = .error e) ∨
      ∃ l' s', l.advance = .ok l' ∧ l.stream.advance = .ok s' ∧ l'.stream = s'
    rw [← hstream]
    cases l.advance with
    | error e => exact .inr (.inl ⟨e, rfl, rfl⟩)
    | ok l' => exact .inr (.inr ⟨l', l'.stream, rfl, rfl, rfl⟩)

/-- The statements from a window on, and the log when they have been read or reading has failed. -/
def read (l : Logged) : Log × Except ReadError Sheet :=
  match h : statementsUpTo (Window.size l + 1) none l with
  | .ok sheet l' => (l'.log, .ok sheet)
  | .failed e l' => (l'.log, .error e)
  | .starved => absurd h (statementsUpTo_ne_starved (Nat.lt_succ_self _))

/-- Reads a text as a sheet with a log of the tokens. -/
def ofText (table : Keyword.Table) (source : String) : Log × Except ReadError Sheet :=
  match (Scanner.ofText source).next table with
  | .error e => (⟨[], []⟩, .error (.scan e))
  | .ok (current, scanner) =>
    match scanner.next table with
    | .error e => (⟨[current], []⟩, .error (.scan e))
    | .ok (ahead, scanner) =>
      read ⟨⟨table, ⟨0, 0⟩, current, ahead, scanner⟩, ⟨[current, ahead], []⟩⟩

/-- Where reading with a log ends, and with what. -/
lemma read_cases (l : Logged) :
    (∃ sheet l', statementsUpTo (Window.size l + 1) none l = .ok sheet l' ∧
      l.read = (l'.log, .ok sheet)) ∨
    ∃ e l', statementsUpTo (Window.size l + 1) none l = .failed e l' ∧
      l.read = (l'.log, .error e) := by
  unfold read
  split
  · rename_i sheet l' h
    exact .inl ⟨sheet, l', h, rfl⟩
  · rename_i e l' h
    exact .inr ⟨e, l', h, rfl⟩
  · rename_i h
    exact absurd h (statementsUpTo_ne_starved (Nat.lt_succ_self _))

/-- The log changes nothing of what is read. -/
lemma read_snd (l : Logged) : l.read.2 = ofWindow l.stream := by
  have hlogged : l.read.2 = ofWindow l := by
    rcases l.read_cases with ⟨sheet, l', h, hread⟩ | ⟨e, l', h, hread⟩
    · rw [hread, ofWindow_eq_ok.mpr ⟨l', h⟩]
    · rw [hread, ofWindow_eq_error.mpr ⟨l', h⟩]
  have hpair : erasing.Pair l l.stream := rfl
  rcases erasing.ofWindow_of_pair hpair with ⟨_, hstop, -⟩ | hsame
  · exact hstop.elim
  · have hid : Sheet.mapSpans id (ofWindow l) = Sheet.mapSpans id (ofWindow l.stream) := hsame
    rw [mapSpans_id, mapSpans_id] at hid
    rw [hlogged, hid]

/-- The log changes nothing of what a text is read as. -/
lemma ofText_snd (table : Keyword.Table) (source : String) :
    (ofText table source).2 = Sheet.ofText table source := by
  rcases h : (Scanner.ofText source).next table with e | ⟨current, scanner⟩
  · rw [ofText, h, Sheet.ofText, Stream.ofText, h]
    rfl
  · rw [ofText, h, Sheet.ofText, Stream.ofText_of_next h]
    dsimp only
    rcases scanner.next table with e | ⟨ahead, scanner⟩
    · rfl
    · exact read_snd _

/-- What the log of a text says where some tokens have been taken: these have left the window, and
with the two that it shows they are what the scanner has yielded. -/
structure Tells (table : Keyword.Table) (source : String) (used : List Token) (l : Logged) :
    Prop where
  reached : l.stream.Reached table source used
  pulled_eq : l.log.pulled = used ++ [l.stream.current, l.stream.ahead]
  taken_eq : l.log.taken = used

/-- The log goes on telling this when the window moves. -/
lemma Tells.advance {table : Keyword.Table} {source : String} {used : List Token} {l l' : Logged}
    (h : Tells table source used l) (hnext : l.advance = .ok l') :
    Tells table source (used ++ [l.stream.current]) l' := by
  have hreached := h.reached.advance (advance_stream_of_ok hnext)
  unfold Logged.advance at hnext
  split at hnext
  · cases hnext
    refine ⟨hreached, ?_, congrArg (· ++ _) h.taken_eq⟩
    simp only [h.pulled_eq, List.append_assoc, List.cons_append, List.nil_append]
  · cases hnext

/-- The log tells this wherever reading gets to. -/
lemma Tells.of_takes {table : Keyword.Table} {source : String} {used : List Token} {l l' : Logged}
    (h : Tells table source [] l) (htakes : Window.Takes l used l') :
    Tells table source used l' :=
  htakes.invariant (Tells table source) h fun hl _ hnext => hl.advance hnext

/-- Reading a text with a log ends at a window whose log tells what it should, unless there is no
window because the scanner fails at one of the first two tokens. -/
lemma ofText_cases (table : Keyword.Table) (source : String) :
    (∃ e log scanner, ofText table source = (log, .error (.scan e)) ∧ log.taken = [] ∧
      (Scanner.ofText source).Pulls table log.pulled scanner ∧ scanner.next table = .error e) ∨
    ∃ l used, Tells table source used l ∧ (∀ t ∈ used, t.kind ≠ .eof) ∧
      ((∃ sheet, ofText table source = (l.log, .ok sheet) ∧ l.stream.current.kind = .eof) ∨
        ∃ e, ofText table source = (l.log, .error e) ∧
          ∀ e', e = .scan e' → (Token.tokenize table source).ending = .error e') := by
  rcases h : (Scanner.ofText source).next table with e | ⟨current, scanner⟩
  · refine .inl ⟨e, ⟨[], []⟩, _, ?_, rfl, rfl, h⟩
    rw [ofText, h]
  · rcases h' : scanner.next table with e | ⟨ahead, scanner'⟩
    · refine .inl ⟨e, ⟨[current], []⟩, scanner, ?_, rfl, ⟨scanner, h, rfl⟩, h'⟩
      simp only [ofText, h, h']
    · have hread : ofText table source =
          read ⟨⟨table, ⟨0, 0⟩, current, ahead, scanner'⟩, ⟨[current, ahead], []⟩⟩ := by
        simp only [ofText, h, h']
      have hstart : Tells table source []
          ⟨⟨table, ⟨0, 0⟩, current, ahead, scanner'⟩, ⟨[current, ahead], []⟩⟩ :=
        ⟨⟨rfl, scanner, h, scanner', h', rfl⟩, rfl, rfl⟩
      generalize (⟨⟨table, ⟨0, 0⟩, current, ahead, scanner'⟩, ⟨[current, ahead], []⟩⟩ : Logged) = l
        at hread hstart
      rw [hread]
      -- the walk tells which tokens have been taken, whether reading succeeds or fails
      have hends := (steps l).ends_statementsUpTo (.blind _) (Window.size l + 1) (at_steps l)
      rcases l.read_cases with ⟨sheet, l', hstatements, hlog⟩ | ⟨e, l', hstatements, hlog⟩
      · obtain ⟨used, hused, -⟩ := takes_of_ends hends hstatements
        have hend := Window.isAtEnd_iff.mp (isAtEnd_of_statementsUpTo hstatements)
        exact .inr ⟨l', used, hstart.of_takes hused, hused.ne_eof, .inl ⟨sheet, hlog, hend⟩⟩
      · obtain ⟨used, hused⟩ := takes_of_ends_failed hends hstatements
        refine .inr ⟨l', used, hstart.of_takes hused, hused.ne_eof, .inr ⟨e, hlog, ?_⟩⟩
        rintro e' rfl
        obtain ⟨used', c, hc, -, he'⟩ := advance_of_ends_scan hends hstatements
        refine (hstart.of_takes hc).reached.ending_of_advance_error ?_
        rw [← advance_stream, show c.advance = .error e' from he']
        rfl

end Logged

/-! ### Whole texts -/

section Text

variable {table : Keyword.Table} {source : String}

/-- What the log of a text says when reading has ended: the tokens in it are the first of the text,
and so are those that have left the window. -/
lemma isPrefix_log (table : Keyword.Table) (source : String) :
    ((Logged.ofText table source).1.pulled <+: (Token.tokenize table source).tokens ∨
      ∃ span, (Token.tokenize table source).ending = .ok span ∧
        (Logged.ofText table source).1.pulled <+: (Token.tokenize table source).tokens ++
          [.endOfInput span, .endOfInput span]) ∧
    (Logged.ofText table source).1.taken <+: (Token.tokenize table source).tokens := by
  rcases Logged.ofText_cases table source with
    ⟨e, log, scanner, hread, htaken, hpulls, hnext⟩ | ⟨l, used, htells, hused, hread⟩
  · have hrun : Token.tokenize table source = ⟨log.pulled, .error e⟩ := hpulls.run_eq hnext
    rw [hread, hrun, htaken]
    exact ⟨.inl (List.prefix_refl _), List.nil_prefix⟩
  · have hlog : (Logged.ofText table source).1 = l.log := by
      rcases hread with ⟨sheet, hread, -⟩ | ⟨e, hread, -⟩ <;> rw [hread]
    rw [hlog, htells.pulled_eq, htells.taken_eq]
    exact ⟨htells.reached.isPrefix hused, htells.reached.isPrefix_used hused⟩

/-- A text that is a sheet is read to its end. -/
lemma log_of_ofText_eq_ok {sheet : Sheet} (h : ofText table source = .ok sheet) :
    ∃ span, (Token.tokenize table source).ending = .ok span ∧
      (Logged.ofText table source).1.taken = (Token.tokenize table source).tokens ∧
      (Logged.ofText table source).1.pulled = (Token.tokenize table source).tokens ++
        [.endOfInput span, .endOfInput span] := by
  rw [← Logged.ofText_snd] at h
  rcases Logged.ofText_cases table source with
    ⟨e, log, scanner, hread, -⟩ | ⟨l, used, htells, hused, ⟨_, hread, hend⟩ | ⟨e, hread, -⟩⟩
  · rw [hread] at h
    cases h
  · obtain ⟨span, hspan, hall, hshown⟩ := htells.reached.of_isAtEnd hused hend
    rw [hread, htells.pulled_eq, htells.taken_eq, hshown, ← hall]
    exact ⟨span, hspan, rfl, rfl⟩
  · rw [hread] at h
    cases h

/-- Only the scanner itself gives its error. -/
lemma ending_of_ofText_eq_scan {e : ScanError} (h : ofText table source = .error (.scan e)) :
    (Token.tokenize table source).ending = .error e := by
  rw [← Logged.ofText_snd] at h
  rcases Logged.ofText_cases table source with
    ⟨_, log, scanner, hread, -, hpulls, hnext⟩ | ⟨l, used, -, -, ⟨_, hread, -⟩ | ⟨_, hread, hscan⟩⟩
  · rw [hread] at h
    cases h
    exact congrArg Token.Tokenization.ending (hpulls.run_eq hnext)
  · rw [hread] at h
    cases h
  · rw [hread] at h
    cases h
    exact hscan e rfl

/-- An error of reading itself starts before an error of the scanner, unless offsets are cut off. -/
lemma start_lt_of_ending_error {e : ScanError} {err : ReadError}
    (hending : (Token.tokenize table source).ending = .error e)
    (h : ofText table source = .error err) (hscan : ∀ e', err ≠ .scan e') :
    err.span.start < e.span.start ∨ Span.maxOffset < source.utf8ByteSize ∧
      err.span.start = Span.maxOffset ∧ e.span.start = Span.maxOffset := by
  obtain ⟨n, -, hn, hstart, hall⟩ :=
    Scanner.exists_startsAt_of_ending table (Scanner.ofText source) hending
  have hsize : n ≤ source.utf8ByteSize := by
    have hlength := Text.byteLength_toList source
    simp only [Scanner.ofText] at hn
    omega
  let T : Token → Prop := fun t => t.span.start < e.span.start ∨
    Span.maxOffset < source.utf8ByteSize ∧ t.span.start = Span.maxOffset ∧
      e.span.start = Span.maxOffset
  have htokens : ∀ t ∈ (Token.tokenize table source).tokens, T t := by
    intro t ht
    obtain ⟨m, hm, hspan⟩ := hall t ht
    simp only [Scanner.StartsAt] at hspan hstart
    simp only [T]
    omega
  have hends : Token.EndsIn T (fun _ => True) (Token.tokenize table source).ending := by
    rw [hending]
    trivial
  -- the error stands at one of the tokens, and so has its start
  have hstands := (built_ofText htokens hends).2 err h
  cases err with
  | scan e' => exact absurd rfl (hscan e')
  | unexpected wanted kind span =>
    obtain ⟨t, ht, -, rfl⟩ := hstands
    exact ht
  | expectedExpression kind span =>
    obtain ⟨t, ht, -, rfl⟩ := hstands
    exact ht
  | unclosed d span =>
    obtain ⟨t, ht, -, rfl⟩ := hstands
    exact ht

end Text

/-- Reading a text as a sheet and scanning it agree.

A log of the tokens that reading takes from the scanner changes nothing of what is read.  They are
the first tokens that scanning yields, and the end of the input may come twice at their end.  If the
text is a sheet, scanning succeeds, each token before the end of the input has left the window and
the end has been taken twice.  An error of the scanner is the one that scanning meets.  Any other
error starts before that one, unless both starts are cut off. -/
theorem ofText_agrees_with_tokenize (table : Keyword.Table) (source : String) :
    ∃ log, Logged.ofText table source = (log, ofText table source) ∧
    (log.pulled <+: (Token.tokenize table source).tokens ∨
      ∃ span, (Token.tokenize table source).ending = .ok span ∧
        log.pulled <+: (Token.tokenize table source).tokens ++
          [.endOfInput span, .endOfInput span]) ∧
    (∀ sheet, ofText table source = .ok sheet →
      ∃ span, (Token.tokenize table source).ending = .ok span ∧
        log.taken = (Token.tokenize table source).tokens ∧
        log.pulled = (Token.tokenize table source).tokens ++
          [.endOfInput span, .endOfInput span]) ∧
    (∀ e, ofText table source = .error (.scan e) →
      (Token.tokenize table source).ending = .error e) ∧
    ∀ e err, (Token.tokenize table source).ending = .error e → ofText table source = .error err →
      (∀ e', err ≠ .scan e') →
        err.span.start < e.span.start ∨ Span.maxOffset < source.utf8ByteSize ∧
          err.span.start = Span.maxOffset ∧ e.span.start = Span.maxOffset := by
  refine ⟨(Logged.ofText table source).1, ?_, (isPrefix_log table source).1, ?_, ?_, ?_⟩
  · rw [← Logged.ofText_snd]
  · exact fun sheet h => log_of_ofText_eq_ok h
  · exact fun e h => ending_of_ofText_eq_scan h
  · exact fun e err hending h hscan => start_lt_of_ending_error hending h hscan

/-- A parenthesis that starts no expression, and a string further on that is not closed. -/
def strayText : String := "; ) ) ) \""

/-- The window of a sheet runs to its end.  The error at the parenthesis comes before the one at the
string, which reading never gets to, and without the parentheses it does get there. -/
theorem ofText_agrees_with_tokenize_strayText :
    (∃ log sheet, Logged.ofText .builtin "A\x7bx:1\x7d" = (log, .ok sheet) ∧
      log.taken.map Token.kind =
        [.typeSelector, .leftBrace, .property, .colon, .number, .rightBrace] ∧
      log.pulled.map Token.kind =
        [.typeSelector, .leftBrace, .property, .colon, .number, .rightBrace, .eof, .eof]) ∧
    (∃ e err, (Token.tokenize .builtin strayText).ending = .error e ∧
      ofText .builtin strayText = .error err ∧ err.span.start < e.span.start) ∧
    (Token.tokenize .builtin "; \"").ending = .error (.unterminated .quotes ⟨2, 3⟩) := by
  refine ⟨?_, ?_, ?_⟩
  · obtain ⟨log, hlog, -, hsheet, -, -⟩ := ofText_agrees_with_tokenize .builtin "A\x7bx:1\x7d"
    have hok : (ofText .builtin "A\x7bx:1\x7d").isOk = true := by decide +kernel
    have hkinds : (Token.tokenize .builtin "A\x7bx:1\x7d").tokens.map Token.kind =
        [.typeSelector, .leftBrace, .property, .colon, .number, .rightBrace] := by decide +kernel
    cases hread : ofText .builtin "A\x7bx:1\x7d" with
    | ok sheet =>
      obtain ⟨span, -, htaken, hpulled⟩ := hsheet sheet hread
      rw [hread] at hlog
      refine ⟨log, sheet, hlog, by rw [htaken, hkinds], ?_⟩
      rw [hpulled, List.map_append, hkinds]
      rfl
    | error e =>
      rw [hread] at hok
      cases hok
  · obtain ⟨_, -, -, -, -, hbefore⟩ := ofText_agrees_with_tokenize .builtin strayText
    have hending : (Token.tokenize .builtin strayText).ending =
        .error (.unterminated .quotes ⟨8, 9⟩) := by decide +kernel
    have hread : ofText .builtin strayText = .error (.expectedExpression .rightParen ⟨2, 3⟩) := by
      cbv
    have hsize : ¬ Span.maxOffset < strayText.utf8ByteSize := by decide +kernel
    have hlt := hbefore _ _ hending hread (by simp)
    exact ⟨_, _, hending, hread, hlt.resolve_right fun h => hsize h.1⟩
  · obtain ⟨_, -, -, -, hscan, -⟩ := ofText_agrees_with_tokenize .builtin "; \""
    have hread : ofText .builtin "; \"" = .error (.scan (.unterminated .quotes ⟨2, 3⟩)) := by cbv
    exact hscan _ hread

/-! ### Offsets that are cut off -/

/-- So many blanks, then two parentheses that close nothing, and a string that is not closed. -/
def farText (n : Nat) : String := String.ofList (List.replicate n ' ' ++ [')', ')', '"'])

/-- Each blank is one byte. -/
lemma byteLength_replicate (n : Nat) : Text.byteLength (List.replicate n ' ') = n := by
  induction n with
  | zero => rfl
  | succ n ih =>
    rw [List.replicate_succ, Text.byteLength, ih, Nat.add_comm]
    rfl

/-- The first parenthesis stands behind the blanks. -/
lemma next_farText (n : Nat) : (Scanner.ofText (farText n)).next .builtin =
    .ok (⟨.rightParen, ")", .ofRange n (n + 1)⟩, ⟨n + 1, some .rightParen, [')', '"']⟩) := by
  have hblank : ∀ c ∈ List.replicate n ' ', Token.isBlank c = true := by
    intro c hc
    rw [List.eq_of_mem_replicate hc]
    rfl
  have htrivia : Token.triviaSize none (List.replicate n ' ' ++ [')', ')', '"']) = n := by
    rw [(Token.trivia_of_isBlank hblank).triviaSize_append, List.length_replicate]
    exact Nat.zero_add n
  have hdrop : (List.replicate n ' ' ++ [')', ')', '"']).drop n = [')', ')', '"'] :=
    List.drop_left' List.length_replicate
  have htake : (List.replicate n ' ' ++ [')', ')', '"']).take n = List.replicate n ' ' :=
    List.take_left' List.length_replicate
  have hcut : Scanner.cut .builtin ⟨0, none, List.replicate n ' ' ++ [')', ')', '"']⟩ =
      .ok ⟨.rightParen, n, 1⟩ := by
    simp only [Scanner.cut, htrivia, hdrop]
    rfl
  have hbehind : (List.replicate n ' ' ++ [')', ')', '"']).drop (n + 1) = [')', '"'] := by
    rw [← List.drop_drop, hdrop]
    rfl
  rw [Scanner.next, Scanner.ofText, farText, String.toList_ofList, hcut]
  simp only [Except.map, Scanner.take, htake, hdrop, hbehind, byteLength_replicate, Nat.zero_add]
  rfl

/-- The tokens of the text. -/
lemma tokenize_farText (n : Nat) : Token.tokenize .builtin (farText n) =
    ⟨[⟨.rightParen, ")", .ofRange n (n + 1)⟩, ⟨.rightParen, ")", .ofRange (n + 1) (n + 2)⟩],
      .error (.unterminated .quotes (.ofRange (n + 2) (n + 3)))⟩ := by
  have hsecond : Scanner.next .builtin ⟨n + 1, some .rightParen, [')', '"']⟩ =
      .ok (⟨.rightParen, ")", .ofRange (n + 1) (n + 2)⟩, ⟨n + 2, some .rightParen, ['"']⟩) := rfl
  have hfails : Scanner.next .builtin ⟨n + 2, some .rightParen, ['"']⟩ =
      .error (.unterminated .quotes (.ofRange (n + 2) (n + 3))) := rfl
  have hpulls : (Scanner.ofText (farText n)).Pulls .builtin
      [⟨.rightParen, ")", .ofRange n (n + 1)⟩, ⟨.rightParen, ")", .ofRange (n + 1) (n + 2)⟩]
      ⟨n + 2, some .rightParen, ['"']⟩ := ⟨_, next_farText n, _, hsecond, rfl⟩
  exact hpulls.run_eq hfails

/-- The parenthesis is to blame, since reading does not get to the string. -/
lemma ofText_farText (n : Nat) : ofText .builtin (farText n) =
    .error (.expectedExpression .rightParen (.ofRange n (n + 1))) := by
  rw [ofText_eq_ofTokens, tokenize_farText]
  rfl

/-- The end of the input is taken twice even where scanning yields it once and nothing else, and an
error far out in a text of more than four gigabytes does not start before one that is behind it. -/
theorem end_pulled_twice_and_starts_cut_off :
    (∃ tokens, (Token.tokenize .builtin "").all = .ok tokens ∧
      ¬ (Logged.ofText .builtin "").1.pulled <+: tokens) ∧
    ∃ e err, (Token.tokenize .builtin (farText (2 ^ 32))).ending = .error e ∧
      ofText .builtin (farText (2 ^ 32)) = .error err ∧ (∀ e', err ≠ .scan e') ∧
      ¬ err.span.start < e.span.start := by
  constructor
  · have hall : (Token.tokenize .builtin "").all = .ok [.endOfInput ⟨0, 0⟩] := by decide +kernel
    have hpulled : (Logged.ofText .builtin "").1.pulled.length = 2 := by decide +kernel
    refine ⟨_, hall, fun hprefix => ?_⟩
    have hle := hprefix.length_le
    rw [hpulled] at hle
    exact absurd hle (by decide)
  · refine ⟨_, _, congrArg Token.Tokenization.ending (tokenize_farText _), ofText_farText _,
      nofun, ?_⟩
    -- both starts are the largest offset that there is
    exact Nat.not_lt.mpr (Nat.le_trans (Nat.min_le_right _ _) (Nat.le_min.mpr ⟨by decide, by rfl⟩))

end Sheet

end StyleSheet

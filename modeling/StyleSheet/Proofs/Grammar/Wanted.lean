import StyleSheet.Proofs.Grammar.Trees
import StyleSheet.Proofs.ValueLists

/-!
# What reading asks for

An error of reading can say what the text should have gone on with.  All that it ever asks for is
listed here (`Wanted.raised`), and a number is not on the list: the grammar takes a token of the
kind of numbers only where it is one, and scanning and reading cut such a token in the same places,
so that its text always has a value (`numbers_split`).

Scanning counts digits, a fraction and a unit one after the other, while reading looks for the first
character that is neither a digit nor a point.
-/

namespace StyleSheet

open Token (Numeral)

/-! ### The texts of numbers -/

namespace Token

/-- A fraction that is scanned is empty, or a point with digits behind it. -/
lemma exists_fraction (cs : List Char) : ∃ ds : List Char, (∀ d ∈ ds, d.isDigit = true) ∧
    cs.take (fractionSize cs) = if ds = [] then [] else '.' :: ds := by
  unfold fractionSize
  split
  · rename_i rest
    split
    · rename_i hhead
      refine ⟨rest.takeWhile Char.isDigit, fun d hd => List.mem_takeWhile_imp hd, ?_⟩
      have hne : rest.takeWhile Char.isDigit ≠ [] := by
        cases rest with
        | nil => cases hhead
        | cons d rest =>
          have hd : d.isDigit = true := hhead
          simp [hd]
      rw [if_neg hne, List.take_succ_cons, take_runSize]
    · exact ⟨[], fun d hd => absurd hd List.not_mem_nil, List.take_zero⟩
  · exact ⟨[], fun d hd => absurd hd List.not_mem_nil, List.take_zero⟩

/-- A unit that is scanned is a percent sign or letters. -/
lemma take_unitSize (cs : List Char) : cs.take (unitSize cs) = ['%'] ∨
    ∀ c ∈ cs.take (unitSize cs), c.isAlpha = true := by
  unfold unitSize
  split
  · exact .inl rfl
  · rw [take_runSize]
    exact .inr fun c hc => List.mem_takeWhile_imp hc

/-- What is scanned as a number is a numeral. -/
lemma exists_numeral {c : Char} (hc : c.isDigit = true) (rest : List Char) :
    ∃ n : Numeral, n.chars = c :: rest.take (number rest).more := by
  let whole := runSize Char.isDigit rest
  let fraction := fractionSize (rest.drop whole)
  obtain ⟨ds, hds, hpoint⟩ := exists_fraction (rest.drop whole)
  refine ⟨⟨c :: rest.takeWhile Char.isDigit, ds,
    (rest.drop (whole + fraction)).take (unitSize (rest.drop (whole + fraction))),
    List.cons_ne_nil _ _, ?_, hds, take_unitSize _⟩, ?_⟩
  · exact List.forall_mem_cons.mpr ⟨hc, fun d hd => List.mem_takeWhile_imp hd⟩
  · simp only [Numeral.chars, Numeral.point, ← hpoint, number, List.take_add, take_runSize, whole,
      fraction, List.cons_append, List.append_assoc]

/-- A token of the kind of numbers is a numeral. -/
lemma Scanner.exists_numeral_of_next {table : Keyword.Table} {s s' : Scanner} {t : Token}
    (h : s.next table = .ok (t, s')) (hk : t.kind = .number) :
    ∃ n : Numeral, t.text = String.ofList n.chars := by
  obtain ⟨cut, hcut, htake⟩ := next_eq_ok h
  obtain ⟨rfl, -⟩ := Prod.mk.inj htake
  rcases cut_cases hcut with ⟨-, rfl⟩ | ⟨rfl, -⟩ | ⟨c, rest, l, hrest, hl, rfl⟩
  · cases hk
  · cases hk
  · obtain ⟨hdigit, rfl⟩ := (numberOnly_lexeme table s.previous _ hl).2 hk
    obtain ⟨n, hn⟩ := exists_numeral hdigit rest
    refine ⟨n, ?_⟩
    simp only [hrest, List.take_succ_cons, hn]

/-- The tokens of the kind of numbers are numerals. -/
lemma exists_numeral_tokenize (table : Keyword.Table) (source : String) :
    ∀ t ∈ (tokenize table source).tokens, t.kind = .number →
      ∃ n : Numeral, t.text = String.ofList n.chars :=
  (Scanner.run_invariant (fun _ => True) _ (fun _ => True)
    (fun _ _ _ _ h _ => ⟨Scanner.exists_numeral_of_next h, trivial⟩) (fun _ _ _ _ _ _ => trivial)
    (fun _ _ _ _ => trivial) (Scanner.ofText source) trivial).1

end Token

namespace Sheet

/-! ### What errors ask for -/

/-- If the token is a number, its text has a value. -/
def Counts (t : Token) : Prop := t.kind = .number → (splitNumber? t.text).isSome = true

/-- If the error asks for something, this is on the list. -/
def ReadError.Wants (e : ReadError) : Prop :=
  ∀ wanted found span, e = .unexpected wanted found span → wanted ∈ Wanted.raised

/-- Windows on tokens whose numbers have values.  A number is the only token whose text is looked
at, so no error is due to its text. -/
def wantedSurvey : Survey Cursor Unit where
  Tok _ := Counts
  next _ _ := ()
  Last _ _ := True
  At _ := Cursor.Shows Counts fun _ => True
  Fail _ := ReadError.Wants
  current h := h.current
  last _ := trivial
  advance h _ _ hd := h.advance hd
  scan _ _ _ := nofun
  unexpected := by
    rintro _ _ wanted - hwanted _ _ _ ⟨⟩
    exact hwanted
  expectedExpression _ := nofun
  invalid ht hk hsplit := by
    have hvalue := ht hk
    rw [hsplit] at hvalue
    cases hvalue
  unclosed _ _ _ := nofun

/-- An error that asks for something asks for something on the list. -/
lemma mem_raised_of_ofText {table : Keyword.Table} {source : String} {wanted : Wanted}
    {found : Token.Kind} {span : Span}
    (h : ofText table source = .error (.unexpected wanted found span)) :
    wanted ∈ Wanted.raised := by
  have htokens : ∀ t ∈ (Token.tokenize table source).tokens, Counts t :=
    fun t ht => (Token.readable_tokenize table source t ht).2
  have hending : Token.EndsIn Counts (fun _ => True) (Token.tokenize table source).ending := by
    cases (Token.tokenize table source).ending with
    | ok span => exact Token.Kind.noConfusion
    | error e => trivial
  rw [ofText_eq_ofTokens, ofTokens] at h
  cases hcursor : Cursor.ofTokens (Token.tokenize table source) with
  | ok c =>
    rw [hcursor] at h
    have hat : wantedSurvey.At () c := (shows_cursor_ofTokens htokens hending).1 c hcursor
    have hread := wantedSurvey.ends_statementsUpTo (.blind _) (Window.size c + 1) hat
    obtain ⟨d, hd⟩ := ofWindow_eq_error.mp h
    rw [hd] at hread
    cases hread with
    | failed _ hfail => exact hfail wanted found span rfl
  | error e =>
    rw [hcursor] at h
    cases h

/-- Scanning and reading agree on numbers.

Reading cuts the text of a number in two and takes the first part for a decimal.  A token of the
kind of numbers is a numeral.  Whatever reads magnitudes is given the digits of the numeral with
their point and nothing else, and what is behind them is the unit.  Its digits are never refused, so
no text fails because a number was wanted. -/
theorem numbers_split (table : Keyword.Table) (source : String) :
    splitNumber? = splitWith Number.ofDecimal? ∧
      (∀ ts, (Token.tokenize table source).all = .ok ts → ∀ t ∈ ts, t.kind = .number →
        ∃ n : Numeral, t.text = String.ofList n.chars ∧
          (∀ (α : Type) (read : List Char → Option α),
            splitWith read t.text = (read (n.whole ++ n.point)).map (·, n.unit?)) ∧
          splitNumber? t.text = some (n.magnitude, n.unit?)) ∧
      ∀ found span, ofText table source ≠ .error (.unexpected (.token .number) found span) := by
  refine ⟨rfl, ?_, ?_⟩
  · intro ts hts t ht hk
    obtain ⟨stop, -, rfl⟩ := Token.Tokenization.exists_ending_of_all hts
    rcases List.mem_append.mp ht with ht | ht
    · obtain ⟨n, hn⟩ := Token.exists_numeral_tokenize table source t ht hk
      refine ⟨n, hn, fun α read => ?_, ?_⟩
      · rw [hn, n.splitWith_chars]
      · rw [hn, n.splitNumber?_chars]
    · obtain rfl := List.mem_singleton.mp ht
      cases hk
  · intro found span h
    exact absurd (mem_raised_of_ofText h) (by decide)

/-- Numbers that end where a point, a letter or a percent sign could go on. -/
def crampedText : String := "A\x7bp: 1.5px 1e5 3%x 7;\x7d"

/-- Its tokens. -/
def crampedTokens : List Token :=
  [⟨.typeSelector, "A", ⟨0, 1⟩⟩, ⟨.leftBrace, "\x7b", ⟨1, 2⟩⟩, ⟨.property, "p", ⟨2, 3⟩⟩,
    ⟨.colon, ":", ⟨3, 4⟩⟩, ⟨.number, "1.5px", ⟨5, 10⟩⟩, ⟨.number, "1e", ⟨11, 13⟩⟩,
    ⟨.number, "5", ⟨13, 14⟩⟩, ⟨.number, "3%", ⟨15, 17⟩⟩, ⟨.string, "x", ⟨17, 18⟩⟩,
    ⟨.number, "7", ⟨19, 20⟩⟩, ⟨.semicolon, ";", ⟨20, 21⟩⟩, ⟨.rightBrace, "\x7d", ⟨21, 22⟩⟩,
    ⟨.eof, "", ⟨22, 22⟩⟩]

/-- Each of its numbers is a numeral that is cut in front of the unit. -/
theorem numbers_split_crampedText :
    (Token.tokenize .builtin crampedText).all = .ok crampedTokens ∧
      (∃ n : Numeral, "1.5px" = String.ofList n.chars ∧
        splitWith some "1.5px" = some (n.whole ++ n.point, n.unit?)) ∧
      splitWith some "1.5px" = some ("1.5".toList, some "px") := by
  have hscan : (Token.tokenize .builtin crampedText).all = .ok crampedTokens := by decide +kernel
  have hmem : ⟨.number, "1.5px", ⟨5, 10⟩⟩ ∈ crampedTokens := by decide +kernel
  obtain ⟨n, hn, hsplit, -⟩ := (numbers_split .builtin crampedText).2.1 _ hscan _ hmem rfl
  exact ⟨hscan, ⟨n, hn, hsplit _ some⟩, by decide +kernel⟩

end Sheet

end StyleSheet

import StyleSheet.Proofs.Scanning.Trivia
import StyleSheet.Proofs.Spans.Mapping
import StyleSheet.Proofs.Spans.Source

/-!
# Text behind a comment

A scanner looks at the text that is left and at the token before, but not at its offset, so a
scanner that stands further on yields the same tokens with their spans shifted
(`Scanner.run_shift`).  Trivia at the start of a text only moves the scanner on
(`Scanner.run_trivia`).

Together they say what a block comment does to the text behind it (`tokenize_comment`).  The end
of a comment is looked for from the star that opens it.  A body that begins with a slash is
therefore cut off at that slash, and the rest of it is text again.
-/

namespace StyleSheet

/-- The span so many bytes further on. -/
def Span.shift (n : Nat) (s : Span) : Span := .ofRange (s.start + n) (s.stop + n)

/-- An offset beyond the last one that fits stays there. -/
lemma Span.shift_ofRange (n start stop : Nat) :
    (ofRange start stop).shift n = .ofRange (start + n) (stop + n) := by
  simp only [shift, ofRange, mk.injEq]
  omega

namespace Token

open Text

/-- All that is yielded, so many bytes further on. -/
def Tokenization.shift (n : Nat) (ts : Tokenization) : Tokenization :=
  ⟨ts.tokens.map (Token.mapSpan (Span.shift n)),
    match ts.ending with
    | .ok span => .ok (span.shift n)
    | .error e => .error (e.mapSpan (Span.shift n))⟩

namespace Scanner

variable {table : Keyword.Table}

/-! ### Scanners further on -/

/-- The scanner on the same text, so many bytes further on. -/
def shift (n : Nat) (s : Scanner) : Scanner := { s with offset := s.offset + n }

/-- A token that is taken at a later offset has its span moved. -/
lemma take_shift (n : Nat) (s : Scanner) (c : Cut) :
    (s.shift n).take c = ((s.take c).1.mapSpan (Span.shift n), (s.take c).2.shift n) := by
  simp only [take, shift, mapSpan, Span.shift_ofRange, Nat.add_right_comm]

/-- An error at a later offset has its span moved. -/
lemma locate_shift (n : Nat) (s : Scanner) (trivia : Nat) (e : LexemeError) :
    (s.shift n).locate trivia e = (s.locate trivia e).mapSpan (Span.shift n) := by
  cases e with
  | unknown more =>
    simp only [locate, shift, ScanError.mapSpan, Span.shift_ofRange, Nat.add_right_comm]
  | unterminated what before =>
    simp only [locate, shift, ScanError.mapSpan, Span.shift_ofRange, Nat.add_right_comm]

/-- The same cut is made further on, and an error stands further on. -/
lemma cut_shift (n : Nat) (s : Scanner) :
    (s.shift n).cut table = (s.cut table).mapError (ScanError.mapSpan (Span.shift n)) := by
  have hjoins (trivia : Nat) : (s.shift n).joinsSelectors trivia = s.joinsSelectors trivia := rfl
  have hrest : (s.shift n).rest = s.rest := rfl
  have hprevious : (s.shift n).previous = s.previous := rfl
  simp only [cut, hjoins, hrest, hprevious]
  split
  · rfl
  · split
    · rfl
    · split
      · rfl
      · simp only [locate_shift]
        rfl

/-- A step further on takes the same token with its span shifted, or fails with the same error. -/
lemma next_shift (n : Nat) (s : Scanner) :
    (s.shift n).next table =
      match s.next table with
      | .ok (t, s') => .ok (t.mapSpan (Span.shift n), s'.shift n)
      | .error e => .error (e.mapSpan (Span.shift n)) := by
  rw [next, next, cut_shift]
  cases s.cut table with
  | ok c => simp only [Except.mapError, Except.map, take_shift]
  | error e => rfl

/-- What a scanner further on yields. -/
lemma run_shift (n : Nat) (s : Scanner) : (s.shift n).run table = (s.run table).shift n := by
  rw [run_eq, run_eq, next_shift]
  cases hstep : s.next table with
  | error e => rfl
  | ok p =>
    obtain ⟨t, s'⟩ := p
    have hkind : (t.mapSpan (Span.shift n)).kind = t.kind := rfl
    by_cases hk : t.kind = .eof
    · simp only [hkind, hk, if_true]
      rfl
    · have hshorter : s'.rest.length < s.rest.length := next_rest_lt hstep hk
      simp only [hkind, hk, if_false, run_shift n s']
      rfl
termination_by s.rest.length

/-! ### Trivia at the start -/

/-- What stands between two tokens counts only where the first one is a selector. -/
lemma lexeme_attached {previous : Option Kind} (h : previous.any Kind.isSimpleSelector = false)
    (attached attached' : Bool) (c : Char) (rest : List Char) :
    lexeme table previous attached c rest = lexeme table previous attached' c rest := by
  simp only [lexeme, h, Bool.false_and]

section Trivia

variable (gap : List Char) (offset : Nat) (previous : Option Kind) (rest : List Char)

/-- A gap in front is dropped with the trivia before the token. -/
lemma take_append (c : Cut) :
    (Scanner.mk offset previous (gap ++ rest)).take { c with gap := gap.length + c.gap } =
      (Scanner.mk (offset + byteLength gap) previous rest).take c := by
  simp only [take, List.take_length_add_append, List.drop_length_add_append, byteLength_append,
    Nat.add_assoc]

/-- An error behind a gap is the one that the rest has behind it. -/
lemma locate_append (trivia : Nat) (e : LexemeError) :
    (Scanner.mk offset previous (gap ++ rest)).locate (gap.length + trivia) e =
      (Scanner.mk (offset + byteLength gap) previous rest).locate trivia e := by
  cases e with
  | unknown more =>
    simp only [locate, List.take_length_add_append, List.drop_length_add_append,
      byteLength_append, Nat.add_assoc]
  | unterminated what before =>
    simp only [locate, List.take_length_add_append, byteLength_append, Nat.add_assoc]

variable {gap previous}

/-- Behind trivia that joins no selectors the same cut is made, the trivia apart. -/
lemma cut_trivia (hgap : Trivia gap) (hprevious : previous.any Kind.isSimpleSelector = false) :
    (Scanner.mk offset previous (gap ++ rest)).cut table =
      ((Scanner.mk (offset + byteLength gap) previous rest).cut table).map
        (fun c => { c with gap := gap.length + c.gap }) := by
  have hjoins (offset : Nat) (rest : List Char) (trivia : Nat) :
      (Scanner.mk offset previous rest).joinsSelectors trivia = false := by
    simp [joinsSelectors, hprevious]
  have hsize : triviaSize none (gap ++ rest) = gap.length + triviaSize none rest := by
    rw [hgap.triviaSize_append, Nat.add_comm]
  simp only [cut, hjoins, Bool.false_eq_true, if_false, hsize, List.drop_length_add_append]
  split
  · rfl
  · rw [lexeme_attached hprevious _ (triviaSize none rest == 0)]
    split
    · rfl
    · rw [locate_append]
      rfl

/-- Trivia at the start only moves the scanner on, unless it joins two selectors. -/
lemma run_trivia (hgap : Trivia gap) (hprevious : previous.any Kind.isSimpleSelector = false) :
    (Scanner.mk offset previous (gap ++ rest)).run table =
      (Scanner.mk (offset + byteLength gap) previous rest).run table := by
  have hnext : (Scanner.mk offset previous (gap ++ rest)).next table =
      (Scanner.mk (offset + byteLength gap) previous rest).next table := by
    rw [next, next, cut_trivia offset rest hgap hprevious]
    cases (Scanner.mk (offset + byteLength gap) previous rest).cut table with
    | ok c => simp only [Except.map, take_append]
    | error e => rfl
  rw [run_eq, run_eq, hnext]

end Trivia

end Scanner

/-! ### Comments -/

/-- A text behind trivia is scanned as it is alone, with all spans shifted by the trivia. -/
lemma tokenize_trivia (table : Keyword.Table) {gap : String} (hgap : Trivia gap.toList)
    (s : String) : tokenize table (gap ++ s) = (tokenize table s).shift gap.utf8ByteSize := by
  have hstart : Scanner.ofText (gap ++ s) = ⟨0, none, gap.toList ++ s.toList⟩ := by
    rw [Scanner.ofText, String.toList_append]
  rw [tokenize, hstart, Scanner.run_trivia 0 s.toList hgap rfl, byteLength_toList]
  exact Scanner.run_shift gap.utf8ByteSize (Scanner.ofText s)

/-- The stars around a body do not make up the end of a comment with it. -/
lemma not_infix_stars {body : List Char} (hbody : ¬ ['*', '/'] <:+: body)
    (hslash : ¬ ['/'] <+: body) : ¬ ['*', '/'] <:+: '*' :: (body ++ ['*']) := by
  rw [List.infix_cons_iff, List.infix_concat_iff, not_or, not_or]
  refine ⟨fun hstart => hslash ?_, fun hend => ?_, hbody⟩
  · have hhead : ['/'] <+: body ++ ['*'] := (List.cons_prefix_cons.mp hstart).2
    cases body with
    | nil => exact absurd hhead (by decide)
    | cons c body => simpa using hhead
  · have hlast := hend.getLast (List.cons_ne_nil _ _)
    simp at hlast

/-- A block comment is trivia if its body does not begin with a slash. -/
lemma trivia_comment {body : String} (hbody : ¬ "*/".toList <:+: body.toList)
    (hslash : ¬ "/".toList <+: body.toList) : Trivia ("/*" ++ body ++ "*/").toList := by
  have htext : ("/*" ++ body ++ "*/").toList =
      '/' :: ('*' :: body.toList ++ '*' :: '/' :: []) := by
    rw [String.toList_append, String.toList_append]
    rfl
  rw [htext]
  exact .block (by simp) (not_infix_stars hbody hslash) .nil

/-- A block comment with a body that does not hold its end can be left out of the start of a
text, and the spans behind it are shifted by its length, unless the body begins with a slash.
Such a body ends with the slash, and what is left of it is scanned as text. -/
theorem tokenize_comment (table : Keyword.Table) (body s : String)
    (hbody : ¬ "*/".toList <:+: body.toList) :
    (¬ "/".toList <+: body.toList →
      tokenize table ("/*" ++ body ++ "*/" ++ s) =
        (tokenize table s).shift ("/*" ++ body ++ "*/").utf8ByteSize) ∧
    ∀ left, body = "/" ++ left →
      tokenize table ("/*" ++ body ++ "*/" ++ s) =
        (tokenize table (left ++ "*/" ++ s)).shift "/*/".utf8ByteSize := by
  constructor
  · intro hslash
    exact tokenize_trivia table (trivia_comment hbody hslash) s
  · rintro left rfl
    have hgap : Trivia "/*/".toList := @Trivia.block [] [] (by simp) (by decide) .nil
    have htext : "/*" ++ ("/" ++ left) ++ "*/" ++ s = "/*/" ++ (left ++ "*/" ++ s) := by
      simp only [← String.append_assoc]
      rfl
    rw [htext]
    exact tokenize_trivia table hgap _

/-- Stars at both ends of a body, a slash in it and a letter of two bytes leave the comment closed
at its end; a slash at the start of a body does not. -/
theorem tokenize_comment_starredBody :
    (¬ "*/".toList <:+: "*é/ *".toList ∧ ¬ "/".toList <+: "*é/ *".toList ∧
      tokenize .builtin ("/*" ++ "*é/ *" ++ "*/" ++ "$a ?") =
        (tokenize .builtin "$a ?").shift 10) ∧
    ¬ "*/".toList <:+: ("/" ++ "x").toList ∧
      tokenize .builtin ("/*" ++ ("/" ++ "x") ++ "*/" ++ "$a ?") =
        (tokenize .builtin ("x" ++ "*/" ++ "$a ?")).shift 3 := by
  have hstars : ¬ "*/".toList <:+: "*é/ *".toList := by decide
  have hfirst : ¬ "/".toList <+: "*é/ *".toList := by decide
  have hslash : ¬ "*/".toList <:+: ("/" ++ "x").toList := by decide
  have hclosed := (tokenize_comment .builtin "*é/ *" "$a ?" hstars).1 hfirst
  have hleft := (tokenize_comment .builtin ("/" ++ "x") "$a ?" hslash).2 "x" rfl
  exact ⟨⟨hstars, hfirst, hclosed⟩, hslash, hleft⟩

/-- Not every block comment can be left out: the comment whose body is a slash leaves its end
behind as two tokens. -/
theorem exists_tokenize_comment_ne :
    ∃ body s : String, ¬ "*/".toList <:+: body.toList ∧
      tokenize .builtin ("/*" ++ body ++ "*/" ++ s) ≠
        (tokenize .builtin s).shift ("/*" ++ body ++ "*/").utf8ByteSize := by
  refine ⟨"/", "", by decide, fun h => ?_⟩
  have htokens : (tokenize .builtin ("/*" ++ "/" ++ "*/" ++ "")).tokens.map Token.kind =
      [.star, .slash] := by decide +kernel
  have hnone : ((tokenize .builtin "").shift ("/*" ++ "/" ++ "*/").utf8ByteSize).tokens = [] := by
    decide +kernel
  rw [h, hnone] at htokens
  cases htokens

end Token

end StyleSheet

import StyleSheet.Proofs.Bytes.Recognition

/-!
# Scanning bytes

A scanner that goes through the bytes of a text.  Every cut that it makes can fail, and then so does
the step.

From between characters no step fails for a cut.  The token or the error that it gives is the one of
`Scanner.next`, and it ends between characters again (`Mirrors.next`).
-/

namespace StyleSheet

open Text

namespace Token

open ByteCursor

/-- A place between bytes with the kind of the last token and where that one ended, and whether it
was the end of the input. -/
structure ByteScanner where
  cursor : ByteCursor
  previous : Option Kind
  previousStop : Nat
  isDone : Bool

namespace ByteScanner

def ofText (source : String) : ByteScanner := ⟨⟨source.toList, 0⟩, none, 0, false⟩

/-- The end of the trivia at the place, if it joins two selectors of a header. -/
def combinator? (b : ByteScanner) : Option (Option ByteCursor) :=
  let c := b.cursor
  if b.previous.any Kind.isSimpleSelector && (isBlank (c.peek 0) || c.comment?.isSome) then
    c.skipTrivia?.bind fun d =>
      if startsSelector (d.peek 0) then
        d.rest?.bind fun rest =>
          (ByteCursor.headerAhead? 0 none ⟨rest, 0⟩).map fun found => if found then some d else none
      else some none
  else some none

/-- The next token and the place behind it. -/
def scan? (table : Keyword.Table) (b : ByteScanner) :
    Option (Except ScanError (Token × ByteCursor)) :=
  b.combinator?.bind fun
    | some d => (d.token? .descendantCombinator b.cursor.pos).map fun t => .ok (t, d)
    | none =>
      b.cursor.skipTrivia?.bind fun c =>
        if c.isAtEnd then some (.ok (.endOfInput (.ofRange c.pos c.pos), c))
        else
          (c.lexeme? table b.previous (b.previousStop == c.pos)).bind fun
            | .ok (kind, d) => (d.token? kind c.pos).map fun t => .ok (t, d)
            | .error e => some (.error e)

/-- The next token and the scanner behind it, unless a cut inside of a character is made. -/
def next? (table : Keyword.Table) (b : ByteScanner) :
    Option (Except ScanError (Token × ByteScanner)) :=
  (b.scan? table).map fun found =>
    found.map fun (t, c) => (t, ⟨c, some t.kind, c.pos, b.isDone || t.kind == .eof⟩)

/-- Whether only trivia is left, unless a cut inside of a character is made. -/
def isAtEnd? (b : ByteScanner) : Option Bool :=
  if b.isDone then some true else b.cursor.skipTrivia?.map ByteCursor.isAtEnd

end ByteScanner

/-- The end of the input is found where only trivia is left. -/
lemma Scanner.eof_of_cut {table : Keyword.Table} {s : Scanner} {c : Scanner.Cut}
    (h : s.cut table = .ok c) (hk : c.kind = .eof) :
    c = ⟨.eof, triviaSize none s.rest, 0⟩ ∧ s.rest.drop c.gap = [] := by
  rcases Scanner.cut_cases h with ⟨-, rfl⟩ | ⟨rfl, hnil⟩ | ⟨a, rest, l, -, hl, rfl⟩
  · cases hk
  · exact ⟨rfl, hnil⟩
  · exact absurd hk (numberOnly_lexeme table s.previous _ hl).1

namespace ByteScanner

/-! ### Steps from between characters -/

/-- The scanner of bytes stands where a scanner of characters stands. -/
structure Mirrors (source : String) (s : Scanner) (b : ByteScanner) : Prop where
  exists_done : ∃ done, source.toList = done ++ s.rest ∧ b.cursor = between done s.rest ∧
    s.offset = byteLength done ∧ b.previousStop = byteLength done
  previous_eq : b.previous = s.previous
  rest_eq : b.isDone = true → s.rest = []

variable {table : Keyword.Table} {source : String} {s : Scanner} {b : ByteScanner}

/-- The scanners start alike. -/
lemma mirrors_ofText (source : String) : Mirrors source (.ofText source) (ofText source) where
  exists_done := ⟨[], rfl, rfl, rfl, rfl⟩
  previous_eq := rfl
  rest_eq := fun h => nomatch h

/-- Scanners that are alike foretell the end alike. -/
lemma Mirrors.isAtEnd?_eq (h : Mirrors source s b) : b.isAtEnd? = some s.isAtEnd := by
  obtain ⟨done, -, hcursor, -, -⟩ := h.exists_done
  unfold isAtEnd?
  split
  · rename_i hdone
    simp [Scanner.isAtEnd, h.rest_eq hdone]
  · rw [hcursor, skipTrivia?_between, Option.map_some, isAtEnd_between]
    rfl

/-- Trivia starts at the place just if there is some. -/
lemma startsTrivia_between (done text : List Char) :
    (isBlank ((between done text).peek 0) || (between done text).comment?.isSome) =
      decide (0 < triviaSize none text) := by
  rw [peek_between plain_isBlank.uniform (by decide)]
  cases text with
  | nil =>
    rw [comment?_between_nil]
    rfl
  | cons a rest =>
    rw [comment?_between, headIs, triviaSize]
    cases isBlank a with
    | true => simp
    | false => cases Comment.opens a rest <;> simp

/-- Scanners that are alike see alike whether blanks join two selectors. -/
lemma combinator?_eq {done : List Char} (hcursor : b.cursor = between done s.rest)
    (hprevious : b.previous = s.previous) :
    b.combinator? = some
      (if s.joinsSelectors (triviaSize none s.rest) then
        some (between (done ++ s.rest.take (triviaSize none s.rest))
          (s.rest.drop (triviaSize none s.rest)))
      else none) := by
  unfold combinator? Scanner.joinsSelectors
  simp only [hcursor, hprevious, startsTrivia_between, skipTrivia?_between, Option.bind_some,
    peek_between plain_startsSelector.uniform (show startsSelector '\x00' = false by decide),
    rest?_between, headerAhead?_start, Option.map_some]
  split_ifs <;> simp_all

/-- What a step of a scanner finds in the characters behind `done`. -/
def located (done : List Char) (s : Scanner) :
    Except ScanError Scanner.Cut → Except ScanError (Token × ByteCursor)
  | .ok c => .ok ((s.take c).1,
    between (done ++ s.rest.take (c.gap + c.size)) (s.rest.drop (c.gap + c.size)))
  | .error e => .error e

/-- An error behind trivia, located from there. -/
lemma locate_drop (s : Scanner) (trivia : Nat) (e : LexemeError) :
    Scanner.locate ⟨s.offset + byteLength (s.rest.take trivia), none, s.rest.drop trivia⟩ 0 e =
      s.locate trivia e := by
  cases e with
  | unknown more => rfl
  | unterminated what before =>
    have hall : byteLength (s.rest.take trivia) + byteLength (s.rest.drop trivia) =
        byteLength s.rest := by rw [← byteLength_append, List.take_append_drop]
    simp only [Scanner.locate, Nat.zero_add, byteLength_take_add, Nat.add_assoc, hall]

/-- A token stands right behind the one before exactly if there are no trivia in between. -/
lemma attached_eq {done rest : List Char} {a : Char} {trivia : Nat}
    (h : s.rest.drop trivia = a :: rest) :
    (byteLength done == byteLength (done ++ s.rest.take trivia)) = (trivia == 0) := by
  have hne : s.rest ≠ [] := by
    intro hnil
    simp [hnil] at h
  rw [Bool.eq_iff_iff, beq_iff_eq, beq_iff_eq, byteLength_append, Nat.left_eq_add,
    byteLength_eq_zero, List.take_eq_nil_iff]
  simp [hne]

/-- Scanners that are alike cut the same token. -/
lemma scan?_eq {done : List Char} (hcursor : b.cursor = between done s.rest)
    (hprevious : b.previous = s.previous) (hoffset : s.offset = byteLength done)
    (hstop : b.previousStop = byteLength done) :
    b.scan? table = some (located done s (s.cut table)) := by
  unfold scan? Scanner.cut
  rw [combinator?_eq hcursor hprevious, Option.bind_some]
  by_cases hjoins : s.joinsSelectors (triviaSize none s.rest) = true
  · simp only [hjoins, if_true]
    rw [hcursor, pos_between, token?_between]
    simp [located, Scanner.take, hoffset, byteLength]
  · simp only [hjoins]
    rw [hcursor, skipTrivia?_between, hprevious, hstop]
    simp only [Option.bind_some, isAtEnd_between, pos_between]
    generalize triviaSize none s.rest = trivia
    cases hrest : s.rest.drop trivia with
    | nil =>
      simp [located, Scanner.take, hoffset, byteLength, byteLength_append, hrest, endOfInput]
    | cons a rest =>
      have hplace : byteLength (done ++ s.rest.take trivia) =
          s.offset + byteLength (s.rest.take trivia) := by rw [byteLength_append, hoffset]
      simp only [List.isEmpty_cons, Bool.false_eq_true, if_false, attached_eq hrest,
        lexeme?_between, Option.bind_some]
      cases lexeme table s.previous (trivia == 0) a rest with
      | ok l =>
        simp only [ByteCursor.located, token?_between, Option.map_some]
        simp only [located, Scanner.take, hrest, hplace, ← List.drop_drop, List.take_add,
          List.append_assoc]
      | error e =>
        have hlocate := locate_drop s trivia e
        rw [hrest] at hlocate
        simp only [ByteCursor.located, located, hplace, hlocate]

/-- From between characters a step makes no cut inside of a character, gives the token or the error
that is there, and ends between characters. -/
lemma Mirrors.next (h : Mirrors source s b) (table : Keyword.Table) :
    (∃ t s' b', s.next table = .ok (t, s') ∧ b.next? table = some (.ok (t, b')) ∧
      Mirrors source s' b') ∨
    ∃ e, s.next table = .error e ∧ b.next? table = some (.error e) := by
  obtain ⟨done, hsource, hcursor, hoffset, hstop⟩ := h.exists_done
  have hscan : b.scan? table = _ := scan?_eq hcursor h.previous_eq hoffset hstop
  unfold next? Scanner.next
  rw [hscan]
  cases hcut : s.cut table with
  | error e => exact .inr ⟨e, rfl, rfl⟩
  | ok c =>
    refine .inl ⟨_, _, _, rfl, rfl, ⟨⟨done ++ s.rest.take (c.gap + c.size), ?_, rfl, ?_, rfl⟩,
      rfl, ?_⟩⟩
    · simp only [List.append_assoc, List.take_append_drop, hsource]
    · simp only [hoffset, byteLength_append, byteLength_take_add, Nat.add_assoc]
    · intro hdone
      rcases Bool.or_eq_true_iff.mp hdone with hdone | heof
      · simp [h.rest_eq hdone]
      · have hc := Scanner.eof_of_cut hcut (eq_of_beq heof)
        simp only [← List.drop_drop, hc.2, List.drop_nil]

end ByteScanner

/-! ### Calls -/

/-- What a scanner can be asked for. -/
inductive Call where
  | next
  | isAtEnd
  deriving DecidableEq

/-- Something that scans, by what it answers.  It gives no answer where it would have to make a cut
inside of a character. -/
structure Machine (σ : Type) where
  next : σ → Option (Except ScanError (Token × σ))
  isAtEnd : σ → Option Bool

/-- The state behind calls in turn, unless one of them fails. -/
def Machine.after {σ : Type} (m : Machine σ) : σ → List Call → Option (Except ScanError σ)
  | s, [] => some (.ok s)
  | s, .isAtEnd :: calls => (m.isAtEnd s).bind fun _ => m.after s calls
  | s, .next :: calls =>
    (m.next s).bind fun
      | .ok (_, s') => m.after s' calls
      | .error e => some (.error e)

def Scanner.machine (table : Keyword.Table) : Machine Scanner where
  next s := some (s.next table)
  isAtEnd s := some s.isAtEnd

/-- An error behind calls stands in the text. -/
lemma Scanner.liesIn_of_after {table : Keyword.Table} {source : String} {s : Scanner}
    {calls : List Call} {e : ScanError} (hs : s.StandsIn source)
    (hsize : source.utf8ByteSize ≤ Span.maxOffset)
    (h : (machine table).after s calls = some (.error e)) : e.span.LiesIn source := by
  induction calls generalizing s with
  | nil => cases h
  | cons call calls ih =>
    cases call with
    | isAtEnd => exact ih hs h
    | next =>
      rcases hnext : s.next table with e' | ⟨t, s'⟩
      · simp only [Machine.after, machine, hnext] at h
        cases h
        obtain ⟨a, rest, cause, -, -, rfl⟩ := Scanner.next_eq_error hnext
        exact hs.locate hsize _ cause
      · simp only [Machine.after, machine, hnext] at h
        obtain ⟨c, -, hc⟩ := Scanner.next_eq_ok hnext
        have hstep := (hs.take hsize c).2
        rw [hc] at hstep
        exact ih hstep h

namespace ByteScanner

def machine (table : Keyword.Table) : Machine ByteScanner := ⟨next? table, isAtEnd?⟩

variable {source : String} {s : Scanner} {b : ByteScanner}

/-- Behind any calls both scanners stand at the same place, unless the same call fails in both. -/
lemma Mirrors.after (h : Mirrors source s b) (table : Keyword.Table) (calls : List Call) :
    (∃ s' b', (Scanner.machine table).after s calls = some (.ok s') ∧
      (machine table).after b calls = some (.ok b') ∧ Mirrors source s' b') ∨
    ∃ e, (Scanner.machine table).after s calls = some (.error e) ∧
      (machine table).after b calls = some (.error e) := by
  induction calls generalizing s b with
  | nil => exact .inl ⟨s, b, rfl, rfl, h⟩
  | cons call calls ih =>
    cases call with
    | isAtEnd =>
      simp only [Machine.after, Scanner.machine, machine, h.isAtEnd?_eq, Option.bind_some]
      exact ih h
    | next =>
      rcases h.next table with ⟨t, s', b', hs, hb, hmirrors⟩ | ⟨e, hs, hb⟩
      · simp only [Machine.after, Scanner.machine, machine, hs, hb, Option.bind_some]
        exact ih hmirrors
      · simp only [Machine.after, Scanner.machine, machine, hs, hb, Option.bind_some]
        exact .inr ⟨e, rfl, rfl⟩

/-- The place of a scanner that mirrors another is one between characters. -/
lemma Mirrors.isValid_pos (h : Mirrors source s b) :
    String.Pos.Raw.IsValid source ⟨b.cursor.pos⟩ := by
  obtain ⟨done, hsource, hcursor, -, -⟩ := h.exists_done
  rw [hcursor]
  exact isValid_byteLength hsource

/-- A cut succeeds just between characters, and none that a scanner of bytes makes fails, whichever
calls are made and whether the last one succeeds or not.  So it stands between characters, and its
next answers are those of the scanner of characters.  An error has a span in the text, if the
offsets of the text fit into a span. -/
theorem cuts_between_characters (table : Keyword.Table) (source : String) (calls : List Call) :
    (∀ c : ByteCursor,
      (c.rest?.isSome = true ↔ String.Pos.Raw.IsValid (String.ofList c.source) ⟨c.pos⟩) ∧
      ∀ start, (c.sliceFrom? start).isSome = true ↔ start ≤ c.pos ∧
        String.Pos.Raw.IsValid (String.ofList c.source) ⟨start⟩ ∧
        String.Pos.Raw.IsValid (String.ofList c.source) ⟨c.pos⟩) ∧
    ((∃ s b, (Scanner.machine table).after (.ofText source) calls = some (.ok s) ∧
        (machine table).after (.ofText source) calls = some (.ok b) ∧
        String.Pos.Raw.IsValid source ⟨b.cursor.pos⟩ ∧
        b.cursor.rest? = some s.rest ∧
        b.isAtEnd? = some s.isAtEnd ∧
        (b.next? table).map (Except.map Prod.fst) = some ((s.next table).map Prod.fst)) ∨
      ∃ e, (Scanner.machine table).after (.ofText source) calls = some (.error e) ∧
        (machine table).after (.ofText source) calls = some (.error e) ∧
        (source.utf8ByteSize < 2 ^ 32 → e.span.LiesIn source)) := by
  refine ⟨fun c => ⟨c.rest?_isSome_iff, c.sliceFrom?_isSome_iff⟩, ?_⟩
  rcases (mirrors_ofText source).after table calls with
    ⟨s, b, hs, hb, hmirrors⟩ | ⟨e, hs, hb⟩
  · refine .inl ⟨s, b, hs, hb, hmirrors.isValid_pos, ?_, hmirrors.isAtEnd?_eq, ?_⟩
    · obtain ⟨done, -, hcursor, -, -⟩ := hmirrors.exists_done
      rw [hcursor, rest?_between]
    · rcases hmirrors.next table with ⟨t, s', b', hs, hb, -⟩ | ⟨e, hs, hb⟩
      · rw [hs, hb]
        rfl
      · rw [hs, hb]
        rfl
  · refine .inr ⟨e, hs, hb, fun hsize => ?_⟩
    exact Scanner.liesIn_of_after ⟨[], rfl, rfl⟩ (Nat.le_of_lt_succ hsize) hs

/-- A backslash protects an accented letter, an attribute and a comment hold one each, and the last
one is no token. -/
def accentedText : String := "\"\\é\"; A[b=\"é\"]/*é*/B\x7b\x7dé"

def accentedCalls : List Call := List.replicate 7 .next ++ [.isAtEnd, .next]

/-- A scanner that is called over a text with characters of several bytes ends with an error, and
the span of it lies in the text. -/
theorem cuts_between_characters_accentedText : accentedText.utf8ByteSize < 2 ^ 32 ∧
    ∃ e, (machine .builtin).after (.ofText accentedText) accentedCalls = some (.error e) ∧
      e.span.LiesIn accentedText := by
  have hsize : accentedText.utf8ByteSize < 2 ^ 32 := by decide +kernel
  have hscan : (Scanner.machine .builtin).after (.ofText accentedText) accentedCalls =
      some (.error (.unknown "é" ⟨25, 27⟩)) := by rfl
  rcases (cuts_between_characters .builtin accentedText accentedCalls).2 with
    ⟨s, b, hs, -⟩ | ⟨e, -, he, hspan⟩
  · rw [hscan] at hs
    cases hs
  · exact ⟨hsize, e, he, hspan hsize⟩

end ByteScanner

end Token

end StyleSheet

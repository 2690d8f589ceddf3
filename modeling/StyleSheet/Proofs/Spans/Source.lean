import StyleSheet.Proofs.Scanning

/-!
# Spans in a source text

A span lies in a text if its ends are in order, inside of the text and between characters.  While a
text is scanned the scanner stands behind a prefix of it, so every token and every error of scanning
has a span that lies in the text, as long as all offsets of the text fit into a span.
-/

namespace StyleSheet

/-- The ends are in order, inside of the text, and where a character starts or the text ends. -/
structure Span.LiesIn (source : String) (s : Span) : Prop where
  ordered : s.start ≤ s.stop
  inside : s.stop ≤ source.utf8ByteSize
  isValid_start : String.Pos.Raw.IsValid source ⟨s.start⟩
  isValid_stop : String.Pos.Raw.IsValid source ⟨s.stop⟩

namespace Text

/-- The bytes of two texts add up. -/
lemma byteLength_append (cs ds : List Char) :
    byteLength (cs ++ ds) = byteLength cs + byteLength ds := by
  induction cs with
  | nil => simp [byteLength]
  | cons c cs ih => simp [byteLength, ih, Nat.add_assoc]

/-- The size of a text is the number of bytes of its characters. -/
lemma utf8ByteSize_ofList (cs : List Char) : (String.ofList cs).utf8ByteSize = byteLength cs := by
  induction cs with
  | nil => rfl
  | cons c cs ih =>
    rw [String.ofList_cons, String.utf8ByteSize_append, String.utf8ByteSize_singleton, ih]
    rfl

/-- The bytes of the characters of a text are its size. -/
lemma byteLength_toList (source : String) : byteLength source.toList = source.utf8ByteSize := by
  rw [← utf8ByteSize_ofList, String.ofList_toList]

/-- A prefix of a text ends between characters. -/
lemma isValid_byteLength {source : String} {cs ds : List Char} (h : source.toList = cs ++ ds) :
    String.Pos.Raw.IsValid source ⟨byteLength cs⟩ := by
  have hsource : source = String.ofList cs ++ String.ofList ds := by
    rw [← String.ofList_append, ← h, String.ofList_toList]
  refine String.Pos.Raw.isValid_iff_exists_append.mpr ⟨_, _, hsource, ?_⟩
  exact String.Pos.Raw.ext (utf8ByteSize_ofList cs).symm

/-- The places between the characters of a text are those behind its prefixes. -/
lemma isValid_iff_exists_append {source : String} {n : Nat} :
    String.Pos.Raw.IsValid source ⟨n⟩ ↔
      ∃ done rest, source.toList = done ++ rest ∧ byteLength done = n := by
  constructor
  · intro h
    obtain ⟨s, t, rfl, hpos⟩ := String.Pos.Raw.isValid_iff_exists_append.mp h
    refine ⟨s.toList, t.toList, String.toList_append, ?_⟩
    rw [byteLength_toList]
    exact (congrArg String.Pos.Raw.byteIdx hpos).symm
  · rintro ⟨done, rest, hsource, rfl⟩
    exact isValid_byteLength hsource

end Text

open Text

namespace Span

variable {source : String}

/-- The span between two prefixes of a text lies in it, if the offsets of the text fit. -/
lemma liesIn_ofRange {cs ds : List Char} (es : List Char) (h : source.toList = cs ++ (ds ++ es))
    (hsize : source.utf8ByteSize ≤ Span.maxOffset) :
    (ofRange (byteLength cs) (byteLength cs + byteLength ds)).LiesIn source := by
  have hlength : byteLength cs + byteLength ds + byteLength es = source.utf8ByteSize := by
    rw [← byteLength_toList, h, byteLength_append, byteLength_append, Nat.add_assoc]
  have hstart : min (byteLength cs) maxOffset = byteLength cs :=
    Nat.min_eq_left (by omega)
  have hstop : min (byteLength cs + byteLength ds) maxOffset = byteLength cs + byteLength ds :=
    Nat.min_eq_left (by omega)
  refine ⟨?_, ?_, ?_, ?_⟩
  · simp only [ofRange, hstart, hstop]
    omega
  · simp only [ofRange, hstop]
    omega
  · simp only [ofRange, hstart]
    exact isValid_byteLength h
  · simp only [ofRange, hstop]
    rw [← byteLength_append]
    exact isValid_byteLength (by rw [h, List.append_assoc])

/-- The empty span at the start lies in every source. -/
lemma liesIn_zero : (⟨0, 0⟩ : Span).LiesIn source :=
  ⟨Nat.le_refl _, Nat.zero_le _, String.Pos.Raw.isValid_zero, String.Pos.Raw.isValid_zero⟩

/-- The smallest span that covers two spans ends where one of them ends. -/
lemma LiesIn.merge {s t : Span} (hs : s.LiesIn source) (ht : t.LiesIn source) :
    (s.merge t).LiesIn source := by
  have hstart : min s.start t.start = s.start ∨ min s.start t.start = t.start := by omega
  have hstop : max s.stop t.stop = s.stop ∨ max s.stop t.stop = t.stop := by omega
  have hordered := hs.ordered
  have hordered' := ht.ordered
  have hinside := hs.inside
  have hinside' := ht.inside
  refine ⟨?_, ?_, ?_, ?_⟩
  · simp only [Span.merge]
    omega
  · simp only [Span.merge]
    omega
  · simp only [Span.merge]
    rcases hstart with h | h
    · rw [h]
      exact hs.isValid_start
    · rw [h]
      exact ht.isValid_start
  · simp only [Span.merge]
    rcases hstop with h | h
    · rw [h]
      exact hs.isValid_stop
    · rw [h]
      exact ht.isValid_stop

end Span

namespace Token

/-- The span of the end, or of the error, that scanning meets. -/
def endSpan : Except ScanError Span → Span
  | .ok span => span
  | .error e => e.span

namespace Scanner

variable {table : Keyword.Table} {source : String} {s : Scanner}

/-- The scanner stands behind a prefix of the text. -/
def StandsIn (source : String) (s : Scanner) : Prop :=
  ∃ done, source.toList = done ++ s.rest ∧ s.offset = byteLength done

/-- Taking a token gives it a span in the text and goes on behind it. -/
lemma StandsIn.take (h : s.StandsIn source) (hsize : source.utf8ByteSize ≤ Span.maxOffset)
    (c : Cut) :
    (s.take c).1.span.LiesIn source ∧ (s.take c).2.StandsIn source := by
  obtain ⟨done, hsource, hoffset⟩ := h
  have hrest : s.rest = s.rest.take c.gap ++
      ((s.rest.drop c.gap).take c.size ++ s.rest.drop (c.gap + c.size)) := by
    rw [← List.drop_drop, List.take_append_drop, List.take_append_drop]
  have hstart : s.offset + byteLength (s.rest.take c.gap) =
      byteLength (done ++ s.rest.take c.gap) := by rw [hoffset, byteLength_append]
  constructor
  · simp only [Scanner.take, hstart]
    refine Span.liesIn_ofRange (s.rest.drop (c.gap + c.size)) ?_ hsize
    rw [List.append_assoc, ← hrest, hsource]
  · refine ⟨done ++ s.rest.take c.gap ++ (s.rest.drop c.gap).take c.size, ?_, ?_⟩
    · simp only [Scanner.take, List.append_assoc]
      rw [← hrest, hsource]
    · simp only [Scanner.take, hstart]
      exact (byteLength_append _ _).symm

/-- An error of scanning has a span in the text. -/
lemma StandsIn.locate (h : s.StandsIn source) (hsize : source.utf8ByteSize ≤ Span.maxOffset)
    (trivia : Nat) (e : LexemeError) : (s.locate trivia e).span.LiesIn source := by
  obtain ⟨done, hsource, hoffset⟩ := h
  cases e with
  | unknown more =>
    have hrest : s.rest = s.rest.take trivia ++
        ((s.rest.drop trivia).take (more + 1) ++ (s.rest.drop trivia).drop (more + 1)) := by
      rw [List.take_append_drop, List.take_append_drop]
    simp only [Scanner.locate, ScanError.span, hoffset, ← byteLength_append done]
    refine Span.liesIn_ofRange ((s.rest.drop trivia).drop (more + 1)) ?_ hsize
    rw [List.append_assoc, ← hrest, hsource]
  | unterminated what before =>
    have hrest : s.rest = s.rest.take (trivia + before) ++ s.rest.drop (trivia + before) := by
      rw [List.take_append_drop]
    have hstop : s.offset + byteLength s.rest = byteLength (done ++ s.rest.take (trivia + before)) +
        byteLength (s.rest.drop (trivia + before)) := by
      rw [hoffset, byteLength_append, Nat.add_assoc, ← byteLength_append (s.rest.take _), ← hrest]
    simp only [Scanner.locate, ScanError.span, hstop]
    rw [hoffset, ← byteLength_append]
    refine Span.liesIn_ofRange [] ?_ hsize
    rw [List.append_nil, List.append_assoc, ← hrest, hsource]

/-- A step fails where no lexeme is written. -/
lemma next_eq_error {e : ScanError} (h : s.next table = .error e) :
    ∃ a rest cause, s.rest.drop (triviaSize none s.rest) = a :: rest ∧
      lexeme table s.previous (triviaSize none s.rest == 0) a rest = .error cause ∧
      e = s.locate (triviaSize none s.rest) cause := by
  have hcut : s.cut table = .error e := by
    unfold next at h
    cases hc : s.cut table with
    | ok c =>
      rw [hc] at h
      cases h
    | error e' =>
      rw [hc] at h
      cases h
      rfl
  unfold cut at hcut
  simp only at hcut
  split at hcut
  · cases hcut
  · split at hcut
    · cases hcut
    · rename_i a rest hrest
      cases hl : lexeme table s.previous (triviaSize none s.rest == 0) a rest with
      | ok l =>
        rw [hl] at hcut
        cases hcut
      | error cause =>
        rw [hl] at hcut
        cases hcut
        exact ⟨a, rest, cause, hrest, hl, rfl⟩

end Scanner

/-- All tokens of a text have spans in it, and so has the end or the error that scanning meets. -/
lemma liesIn_tokenize (table : Keyword.Table) {source : String}
    (hsize : source.utf8ByteSize ≤ Span.maxOffset) :
    (∀ t ∈ (tokenize table source).tokens, t.span.LiesIn source) ∧
      (endSpan (tokenize table source).ending).LiesIn source := by
  have htake : ∀ s t s', Scanner.StandsIn source s → s.next table = .ok (t, s') →
      t.span.LiesIn source ∧ Scanner.StandsIn source s' := by
    intro s t s' hs hnext
    obtain ⟨c, -, hc⟩ := Scanner.next_eq_ok hnext
    have hstep := hs.take hsize c
    rwa [hc] at hstep
  refine Scanner.run_invariant (Scanner.StandsIn source) (fun t => t.span.LiesIn source)
    (fun ending => (endSpan ending).LiesIn source) (fun s t s' hs hnext _ => htake s t s' hs hnext)
    (fun s t s' hs hnext _ => (htake s t s' hs hnext).1) ?_ (Scanner.ofText source) ⟨[], rfl, rfl⟩
  intro s e hs hnext
  obtain ⟨a, rest, cause, -, -, rfl⟩ := Scanner.next_eq_error hnext
  exact hs.locate hsize _ cause

end Token

end StyleSheet

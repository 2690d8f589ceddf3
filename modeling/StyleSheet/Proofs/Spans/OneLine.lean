import StyleSheet.Proofs.Scanning.Lossless

/-!
# Tokens that stand in one line

Strings, attributes and the trivia between selectors can go over several lines, and an error that
stands at such a token covers them all.  Other tokens are written without blanks.  Of these the ones
that errors stand at by themselves are considered here: variables, `&`, and what opens a block or a
list of arguments.  What is no token at all has no blanks either.
-/

namespace StyleSheet

open Text

/-- The span covers a text of the source that is not empty and has no line end in it. -/
def Span.OneLine (source : String) (s : Span) : Prop :=
  ∃ text, slice? source.toList s.start s.stop = some text ∧ text ≠ [] ∧
    ∀ c ∈ text, c ≠ '\n' ∧ c ≠ '\r'

/-- A span in one line is not empty. -/
lemma Span.OneLine.isEmpty_eq_false {source : String} {s : Span} (h : s.OneLine source) :
    s.isEmpty = false := by
  obtain ⟨text, hslice, hne, -⟩ := h
  by_contra hempty
  have heq : s.start = s.stop := by simpa [Span.isEmpty] using hempty
  rw [slice?, heq, if_pos (Nat.le_refl _), Nat.sub_self] at hslice
  obtain ⟨rest, -, htake⟩ := Option.bind_eq_some_iff.mp hslice
  have hnil : takeBytes? rest 0 = some [] := by cases rest <;> rfl
  rw [hnil] at htake
  exact hne (Option.some.inj htake).symm

/-- The codes of errors that stand in one line wherever they arise. -/
def Diagnostic.Code.oneLine : List Code :=
  [.unknownToken, .unclosedDelimiter, .undefinedVariable, .strayParentReference]

namespace Token

/-- The kinds of tokens that are written in one line and that errors stand at. -/
def oneLineKinds : List Kind := [.variableName, .parentReference, .leftBrace, .leftParen]

/-! ### Lexemes without blanks -/

/-- A class of characters without blanks. -/
lemma isBlank_eq_false {p : Char → Bool} (hp : [' ', '\t', '\n', '\r'].any p = false)
    {c : Char} (hc : p c = true) : isBlank c = false := by
  refine Bool.eq_false_iff.mpr fun hblank => ?_
  have hmem : c ∈ [' ', '\t', '\n', '\r'] := by simpa [isBlank, or_assoc] using hblank
  exact List.any_eq_false.mp hp c hmem hc

/-- The name of a variable has no blanks. -/
lemma isBlank_of_mem_take_variableSize (cs : List Char) :
    ∀ d ∈ cs.take (variableSize cs), isBlank d = false := by
  induction cs with
  | nil => exact fun d hd => absurd hd List.not_mem_nil
  | cons c cs ih =>
    rw [variableSize]
    split
    · rename_i hc
      rw [List.take_succ_cons]
      refine List.forall_mem_cons.mpr ⟨?_, ih⟩
      refine isBlank_eq_false (p := fun c => c.isAlphanum || c == '_' || c == '-') rfl ?_
      simp only [Bool.or_eq_true, Bool.and_eq_true] at hc ⊢
      exact hc.imp_right And.left
    · exact fun d hd => absurd hd List.not_mem_nil

namespace Recognised

variable {c : Char} {rest : List Char}

/-- A compound selector may run over several lines, so its kind is none of these. -/
lemma kind_notMem_oneLineKinds (s : Compound) (c : Char) : s.kind c ∉ oneLineKinds := by
  unfold Compound.kind
  split_ifs
  all_goals decide

/-- A lexeme of one of these kinds has no blanks behind its first character. -/
lemma isBlank_of_kind {l : Lexeme} (h : Recognised c rest (.ok l)) (hk : l.kind ∈ oneLineKinds) :
    ∀ d ∈ rest.take l.more, isBlank d = false := by
  have hplain : ∀ k ∈ plainKinds, k ∉ oneLineKinds := by decide
  cases h with
  | punctuation hp => exact fun d hd => absurd hd List.not_mem_nil
  | number hdigit => exact absurd hk (show Kind.number ∉ oneLineKinds by decide)
  | variableName => exact isBlank_of_mem_take_variableSize rest
  | keyword k n => exact absurd hk (by simp [oneLineKinds])
  | selector s a n => exact absurd hk (kind_notMem_oneLineKinds s a)
  | plain hmem n => exact absurd hk (hplain _ hmem)

/-- What is no lexeme has no blanks behind its first character. -/
lemma isBlank_of_unknown {more : Nat} (h : Recognised c rest (.error (.unknown more))) :
    ∀ d ∈ rest.take more, isBlank d = false := by
  cases h with
  | unknown => exact fun d hd => absurd hd List.not_mem_nil
  | unknownKeyword =>
    intro d hd
    rw [take_runSize] at hd
    exact isBlank_eq_false rfl (List.mem_takeWhile_imp hd)

end Recognised

/-! ### What a scanner yields -/

namespace Scanner

variable {table : Keyword.Table} {source : String} {s : Scanner}

/-- What is cut out of a text is what its span covers. -/
lemma StandsIn.slice? (h : s.StandsIn source) (hsize : source.utf8ByteSize ≤ Span.maxOffset)
    (gap size : Nat) {span : Span}
    (hspan : span = .ofRange (s.offset + byteLength (s.rest.take gap))
      (s.offset + byteLength (s.rest.take gap) + byteLength ((s.rest.drop gap).take size))) :
    Text.slice? source.toList span.start span.stop = some ((s.rest.drop gap).take size) := by
  obtain ⟨done, hsource, hoffset⟩ := h
  have hsplit : source.toList = done ++ s.rest.take gap ++
      ((s.rest.drop gap).take size ++ (s.rest.drop gap).drop size) := by
    rw [List.take_append_drop, List.append_assoc, List.take_append_drop, hsource]
  have hlength := congrArg byteLength hsplit
  simp only [byteLength_toList, byteLength_append] at hlength
  have hstart : min (s.offset + byteLength (s.rest.take gap)) Span.maxOffset =
      byteLength (done ++ s.rest.take gap) := by
    rw [byteLength_append, hoffset]
    omega
  have hstop : min (s.offset + byteLength (s.rest.take gap) +
      byteLength ((s.rest.drop gap).take size)) Span.maxOffset =
      byteLength (done ++ s.rest.take gap) + byteLength ((s.rest.drop gap).take size) := by
    rw [byteLength_append, hoffset]
    omega
  simp only [hspan, Span.ofRange, hstart, hstop]
  rw [hsplit]
  exact slice?_byteLength _ _ _

/-- What a lexeme is read from starts with no blank. -/
lemma isBlank_of_drop {c : Char} {rest : List Char}
    (h : s.rest.drop (triviaSize none s.rest) = c :: rest) : isBlank c = false := by
  have hstarts := (trivia_of_drop h).2
  rw [h, startsTrivia, Bool.or_eq_false_iff] at hstarts
  exact hstarts.1

/-- Behind the trivia, characters without blanks stand in one line. -/
lemma StandsIn.oneLine (h : s.StandsIn source) (hsize : source.utf8ByteSize ≤ Span.maxOffset)
    {c : Char} {rest : List Char} (hrest : s.rest.drop (triviaSize none s.rest) = c :: rest)
    {more : Nat} (hmore : ∀ d ∈ rest.take more, isBlank d = false) {span : Span}
    (hspan : span = .ofRange (s.offset + byteLength (s.rest.take (triviaSize none s.rest)))
      (s.offset + byteLength (s.rest.take (triviaSize none s.rest)) +
        byteLength ((s.rest.drop (triviaSize none s.rest)).take (more + 1)))) :
    span.OneLine source := by
  have hslice := h.slice? hsize _ _ hspan
  rw [hrest, List.take_succ_cons] at hslice
  refine ⟨_, hslice, List.cons_ne_nil _ _, fun d hd => ?_⟩
  have hblank : isBlank d = false := by
    rcases List.mem_cons.mp hd with rfl | hd
    · exact isBlank_of_drop hrest
    · exact hmore d hd
  constructor
  · rintro rfl
    exact absurd hblank (by decide)
  · rintro rfl
    exact absurd hblank (by decide)

/-- A token of one of these kinds stands in one line. -/
lemma StandsIn.oneLine_of_next (h : s.StandsIn source)
    (hsize : source.utf8ByteSize ≤ Span.maxOffset) {t : Token} {s' : Scanner}
    (hnext : s.next table = .ok (t, s')) (hk : t.kind ∈ oneLineKinds) : t.span.OneLine source := by
  obtain ⟨c, hcut, htake⟩ := next_eq_ok hnext
  obtain ⟨rfl, -⟩ := Prod.mk.inj htake
  rcases cut_cases hcut with ⟨-, rfl⟩ | ⟨rfl, -⟩ | ⟨a, rest, l, hrest, hl, rfl⟩
  · exact absurd hk (by simp [oneLineKinds])
  · exact absurd hk (by simp [oneLineKinds])
  · have hlexeme := recognised_lexeme table s.previous (triviaSize none s.rest == 0) a rest
    rw [hl] at hlexeme
    exact h.oneLine hsize hrest (hlexeme.isBlank_of_kind hk) rfl

/-- A character that starts no token stands in one line. -/
lemma StandsIn.oneLine_of_error (h : s.StandsIn source)
    (hsize : source.utf8ByteSize ≤ Span.maxOffset) {e : ScanError}
    (hnext : s.next table = .error e) (hcode : e.code = .unknownToken) : e.span.OneLine source := by
  obtain ⟨a, rest, cause, hrest, hl, rfl⟩ := next_eq_error hnext
  have hlexeme := recognised_lexeme table s.previous (triviaSize none s.rest == 0) a rest
  rw [hl] at hlexeme
  cases cause with
  | unknown more => exact h.oneLine hsize hrest hlexeme.isBlank_of_unknown rfl
  | unterminated what before => cases hcode

end Scanner

/-- Tokens of these kinds stand in one line, and so does what is no token. -/
lemma oneLine_tokenize (table : Keyword.Table) {source : String}
    (hsize : source.utf8ByteSize ≤ Span.maxOffset) :
    (∀ t ∈ (tokenize table source).tokens, t.kind ∈ oneLineKinds → t.span.OneLine source) ∧
      ∀ e, (tokenize table source).ending = .error e → e.code = .unknownToken →
        e.span.OneLine source := by
  refine Scanner.run_invariant (Scanner.StandsIn source)
    (fun t => t.kind ∈ oneLineKinds → t.span.OneLine source)
    (fun ending => ∀ e, ending = .error e → e.code = .unknownToken → e.span.OneLine source)
    ?_ ?_ ?_ (Scanner.ofText source) ⟨[], rfl, rfl⟩
  · intro s t s' hs hnext _
    refine ⟨hs.oneLine_of_next hsize hnext, ?_⟩
    obtain ⟨c, -, htake⟩ := Scanner.next_eq_ok hnext
    have hstands := (hs.take hsize c).2
    rwa [htake] at hstands
  · rintro s t s' - - - _ ⟨⟩
  · rintro s e hs hnext _ ⟨⟩ hcode
    exact hs.oneLine_of_error hsize hnext hcode

end Token

end StyleSheet

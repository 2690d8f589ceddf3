import Mathlib.Data.List.Chain
import Mathlib.Data.List.Forall2
import StyleSheet.Proofs.Scanning.Trivia
import StyleSheet.Proofs.Spans.Source

/-!
# Scanning loses nothing

The tokens of a text and the gaps between them are the text.  A gap is a run of trivia that goes as
far as trivia goes; only before a descendant combinator there is no gap, because the run is the text
of the token.

A scanner yields its next token and then what the scanner behind it yields.  `Tiles` says of all
that is left what this does with it, and every statement about spans and gaps is read off from it.
-/

namespace StyleSheet

namespace Text

/-! ### Cuts at byte offsets -/

/-- A character has at least one byte, and the others follow its bytes. -/
lemma exists_byteLength_cons (c : Char) (cs : List Char) : ∃ n, byteLength (c :: cs) = n + 1 ∧
    c.utf8Size ≤ n + 1 ∧ n + 1 - c.utf8Size = byteLength cs := by
  have hpos : 0 < c.utf8Size := c.utf8Size_pos
  refine ⟨c.utf8Size - 1 + byteLength cs, ?_, ?_, ?_⟩
  · simp only [byteLength]
    omega
  · omega
  · omega

/-- Dropping the bytes of the first part leaves the second. -/
lemma dropBytes?_byteLength (cs ds : List Char) :
    dropBytes? (cs ++ ds) (byteLength cs) = some ds := by
  induction cs with
  | nil => cases ds <;> rfl
  | cons c cs ih =>
    obtain ⟨n, hn, hle, hrest⟩ := exists_byteLength_cons c cs
    rw [List.cons_append, hn, dropBytes?, if_pos hle, hrest, ih]

/-- Taking the bytes of the first part gives it. -/
lemma takeBytes?_byteLength (cs ds : List Char) :
    takeBytes? (cs ++ ds) (byteLength cs) = some cs := by
  induction cs with
  | nil => cases ds <;> rfl
  | cons c cs ih =>
    obtain ⟨n, hn, hle, hrest⟩ := exists_byteLength_cons c cs
    rw [List.cons_append, hn, takeBytes?, if_pos hle, hrest, ih]
    rfl

/-- The text between two prefixes. -/
lemma slice?_byteLength (cs ds es : List Char) :
    slice? (cs ++ (ds ++ es)) (byteLength cs) (byteLength cs + byteLength ds) = some ds := by
  rw [slice?, if_pos (Nat.le_add_right _ _), dropBytes?_byteLength, Nat.add_sub_cancel_left]
  exact takeBytes?_byteLength ds es

end Text

open Text

namespace Token

/-! ### Gaps -/

/-- What can stand before a token, if `rest` is the text from the token on. -/
inductive Gap : List Char → Token → List Char → Prop where
  /-- A run of trivia that does not go on. -/
  | skipped {gap rest : List Char} {t : Token} (h : Trivia gap)
    (hrest : startsTrivia rest = false) : Gap gap t rest
  /-- Nothing before a run of trivia that joins two selectors. -/
  | joining {t : Token} {rest : List Char} (hkind : t.kind = .descendantCombinator)
    (h : Trivia t.text.toList) (hrest : startsTrivia rest = false) :
    Gap [] t (t.text.toList ++ rest)
  /-- Trivia with a comment that is open at the end of the text. -/
  | unclosed {run tail : List Char} {t : Token} (hkind : t.kind = .eof) (h : Trivia run)
    (htail : OpenComment tail) : Gap (run ++ tail) t []

/-- The texts between the tokens: before each of them, from where the one before it stops. -/
def gapTexts (source : List Char) : Nat → List Token → List (Option (List Char))
  | _, [] => []
  | stop, t :: ts => slice? source stop t.span.start :: gapTexts source t.span.stop ts

/-- The gaps and the texts of the tokens, in turn. -/
def joined (gaps : List (List Char)) (ts : List Token) : List Char :=
  (List.zipWith (fun gap t => gap ++ t.text.toList) gaps ts).flatten

/-- The tokens are the text but for the gaps between them. -/
structure Lossless (source : String) (ts : List Token) : Prop where
  /-- A token has the text that its span covers. -/
  slice : ∀ t ∈ ts, slice? source.toList t.span.start t.span.stop = some t.text.toList
  /-- A token stops before the next one starts. -/
  ordered : ts.IsChain (fun t u => t.span.stop ≤ u.span.start)
  /-- The last token, and no other, is the end of the input. -/
  ending : ∃ init, ts = init ++ [.endOfInput (.point source.utf8ByteSize)] ∧
    ∀ t ∈ init, t.text ≠ "" ∧ t.kind ≠ .eof
  gaps : ∃ gaps : List (List Char), gapTexts source.toList 0 ts = gaps.map some ∧
    gaps.Forall₂ (fun gap t => ∃ rest, dropBytes? source.toList t.span.start = some rest ∧
      Gap gap t rest) ts ∧
    joined gaps ts = source.toList

/-! ### Tilings -/

/-- How the tokens lie in what is left of a text behind `offset` bytes. -/
inductive Tiles : Nat → List Char → List (List Char) → List Token → Prop where
  | ending {offset : Nat} {gap : List Char}
    (hgap : Gap gap (.endOfInput (.point (offset + byteLength gap))) []) :
    Tiles offset gap [gap] [.endOfInput (.point (offset + byteLength gap))]
  | token {offset : Nat} {gap after : List Char} {gaps : List (List Char)} {t : Token}
    {ts : List Token} (hgap : Gap gap t (t.text.toList ++ after))
    (hspan : t.span = ⟨offset + byteLength gap,
      offset + byteLength gap + byteLength t.text.toList⟩)
    (htext : t.text ≠ "") (hkind : t.kind ≠ .eof)
    (h : Tiles (offset + byteLength gap + byteLength t.text.toList) after gaps ts) :
    Tiles offset (gap ++ (t.text.toList ++ after)) (gap :: gaps) (t :: ts)

namespace Tiles

variable {offset : Nat} {cs : List Char} {gaps : List (List Char)} {ts : List Token}

/-- Gaps and tokens together are the text. -/
lemma joined_eq (h : Tiles offset cs gaps ts) : joined gaps ts = cs := by
  induction h with
  | ending hgap => simp [joined, endOfInput]
  | token hgap hspan htext hkind h ih =>
    rw [joined] at ih
    simp [joined, ih]

/-- The end of the input comes last and nowhere else, and all other tokens have text. -/
lemma ending_eq (h : Tiles offset cs gaps ts) :
    ∃ init, ts = init ++ [.endOfInput (.point (offset + byteLength cs))] ∧
      ∀ t ∈ init, t.text ≠ "" ∧ t.kind ≠ .eof := by
  induction h with
  | ending hgap => exact ⟨[], rfl, fun t ht => absurd ht List.not_mem_nil⟩
  | @token offset gap after gaps t ts hgap hspan htext hkind h ih =>
    obtain ⟨init, rfl, hinit⟩ := ih
    refine ⟨t :: init, ?_, List.forall_mem_cons.mpr ⟨⟨htext, hkind⟩, hinit⟩⟩
    simp only [byteLength_append, List.cons_append, Nat.add_assoc]

/-- The first token starts behind what came before, and each stops before the next starts. -/
lemma isChain (h : Tiles offset cs gaps ts) : (∀ t ∈ ts.head?, offset ≤ t.span.start) ∧
    ts.IsChain (fun t u => t.span.stop ≤ u.span.start) := by
  induction h with
  | ending hgap =>
    refine ⟨?_, .singleton _⟩
    rintro t ⟨⟩
    exact Nat.le_add_right _ _
  | @token offset gap after gaps t ts hgap hspan htext hkind h ih =>
    constructor
    · rintro u ⟨⟩
      rw [hspan]
      exact Nat.le_add_right _ _
    · refine List.isChain_cons.mpr ⟨fun u hu => ?_, ih.2⟩
      rw [hspan]
      exact ih.1 u hu

/-- If the text is what was done before and what is left, each token is cut from it by its span. -/
lemma slice?_eq (h : Tiles offset cs gaps ts) (done : List Char)
    (hoffset : offset = byteLength done) :
    ∀ t ∈ ts, slice? (done ++ cs) t.span.start t.span.stop = some t.text.toList := by
  induction h generalizing done with
  | @ending offset gap hgap =>
    subst hoffset
    have hslice := slice?_byteLength (done ++ gap) [] []
    rintro t ht
    obtain rfl := List.mem_singleton.mp ht
    simpa [byteLength, byteLength_append, endOfInput, Span.point] using hslice
  | @token offset gap after gaps t ts hgap hspan htext hkind h ih =>
    subst hoffset
    have hslice := slice?_byteLength (done ++ gap) t.text.toList after
    have hafter := ih (done ++ gap ++ t.text.toList) (by simp only [byteLength_append])
    simp only [byteLength_append, List.append_assoc] at hslice hafter
    refine List.forall_mem_cons.mpr ⟨?_, hafter⟩
    rw [hspan]
    exact hslice

/-- The texts between the spans of the tokens are the gaps. -/
lemma gapTexts_eq (h : Tiles offset cs gaps ts) (done : List Char)
    (hoffset : offset = byteLength done) :
    gapTexts (done ++ cs) offset ts = gaps.map some := by
  induction h generalizing done with
  | @ending offset gap hgap =>
    subst hoffset
    have hslice := slice?_byteLength done gap []
    rw [List.append_nil] at hslice
    simp only [gapTexts, endOfInput, Span.point, hslice, List.map_cons, List.map_nil]
  | @token offset gap after gaps t ts hgap hspan htext hkind h ih =>
    subst hoffset
    have hslice := slice?_byteLength done gap (t.text.toList ++ after)
    have hafter := ih (done ++ gap ++ t.text.toList) (by simp only [byteLength_append])
    simp only [List.append_assoc] at hafter
    rw [gapTexts, hspan, hslice, hafter, List.map_cons]

/-- Each gap is one before what follows it in the text. -/
lemma forall₂_gap (h : Tiles offset cs gaps ts) (done : List Char)
    (hoffset : offset = byteLength done) :
    gaps.Forall₂ (fun gap t => ∃ rest, dropBytes? (done ++ cs) t.span.start = some rest ∧
      Gap gap t rest) ts := by
  induction h generalizing done with
  | @ending offset gap hgap =>
    subst hoffset
    have hdrop := dropBytes?_byteLength (done ++ gap) []
    rw [List.append_nil, byteLength_append] at hdrop
    exact .cons ⟨[], hdrop, hgap⟩ .nil
  | @token offset gap after gaps t ts hgap hspan htext hkind h ih =>
    subst hoffset
    have hdrop := dropBytes?_byteLength (done ++ gap) (t.text.toList ++ after)
    have hafter := ih (done ++ gap ++ t.text.toList) (by simp only [byteLength_append])
    simp only [byteLength_append, List.append_assoc] at hdrop hafter
    refine .cons ⟨_, ?_, hgap⟩ hafter
    rw [hspan]
    exact hdrop

/-- Tokens that tile a text lose nothing of it. -/
lemma lossless {source : String} (h : Tiles 0 source.toList gaps ts) : Lossless source ts where
  slice := h.slice?_eq [] rfl
  ordered := h.isChain.2
  ending := by
    have hending := h.ending_eq
    rwa [byteLength_toList, Nat.zero_add] at hending
  gaps := ⟨gaps, h.gapTexts_eq [] rfl, h.forall₂_gap [] rfl, h.joined_eq⟩

end Tiles

/-! ### What a scanner yields -/

namespace Scanner

variable {table : Keyword.Table} {s s' : Scanner} {t : Token}

/-- Trivia that is skipped before a character goes as far as trivia goes. -/
lemma trivia_of_drop {c : Char} {rest : List Char}
    (h : s.rest.drop (triviaSize none s.rest) = c :: rest) :
    Trivia (s.rest.take (triviaSize none s.rest)) ∧
      startsTrivia (s.rest.drop (triviaSize none s.rest)) = false := by
  rcases triviaSize_cases s.rest with htrivia | ⟨hall, -⟩
  · exact htrivia
  · rw [hall, List.drop_length] at h
    cases h

/-- Trivia that is skipped at the end is a gap before it. -/
lemma gap_of_drop_eq_nil (hkind : t.kind = .eof)
    (h : s.rest.drop (triviaSize none s.rest) = []) : Gap s.rest t [] := by
  rcases triviaSize_cases s.rest with ⟨htrivia, -⟩ | ⟨-, run, tail, hsplit, hrun, htail⟩
  · rw [List.take_of_length_le (List.drop_eq_nil_iff.mp h)] at htrivia
    exact .skipped htrivia rfl
  · rw [hsplit]
    exact .unclosed hkind hrun htail

/-- Trivia that joins selectors stands before a character. -/
lemma exists_drop_of_joinsSelectors {n : Nat} (h : s.joinsSelectors n = true) :
    0 < n ∧ ∃ c rest, s.rest.drop n = c :: rest := by
  simp only [joinsSelectors, Bool.and_eq_true, decide_eq_true_eq] at h
  obtain ⟨⟨⟨-, hpos⟩, hhead⟩, -⟩ := h
  refine ⟨hpos, ?_⟩
  cases hdrop : s.rest.drop n with
  | nil =>
    rw [hdrop] at hhead
    cases hhead
  | cons c rest => exact ⟨c, rest, rfl⟩

/-- What is left is the gap, the token that is taken, and what is left behind it. -/
lemma rest_eq_take (s : Scanner) (c : Cut) : s.rest = s.rest.take c.gap ++
    ((s.rest.drop c.gap).take c.size ++ (s.take c).2.rest) := by
  simp only [take]
  rw [← List.drop_drop, List.take_append_drop, List.take_append_drop]

/-- The end of the text is the same for the scanner behind a token. -/
lemma offset_add_take (s : Scanner) (c : Cut) :
    (s.take c).2.offset + byteLength (s.take c).2.rest = s.offset + byteLength s.rest := by
  have hlength := congrArg byteLength (s.rest_eq_take c)
  simp only [byteLength_append] at hlength
  rw [hlength, ← Nat.add_assoc, ← Nat.add_assoc]
  rfl

/-- A token that is taken stands before whatever the tokens behind it tile. -/
lemma tiles_take {c : Cut} (hsize : s.offset + byteLength s.rest ≤ Span.maxOffset)
    (hgap : Gap (s.rest.take c.gap) (s.take c).1 (s.rest.drop c.gap))
    (htext : (s.rest.drop c.gap).take c.size ≠ []) (hkind : c.kind ≠ .eof)
    {gaps : List (List Char)} {ts : List Token}
    (h : Tiles (s.take c).2.offset (s.take c).2.rest gaps ts) :
    Tiles s.offset s.rest (s.rest.take c.gap :: gaps) ((s.take c).1 :: ts) := by
  have hrest := s.rest_eq_take c
  have hafter : s.rest.drop c.gap = (s.rest.drop c.gap).take c.size ++ (s.take c).2.rest :=
    List.append_cancel_left ((List.take_append_drop c.gap s.rest).trans hrest)
  have hlength := congrArg byteLength hrest
  simp only [byteLength_append] at hlength
  have hlist : (s.take c).1.text.toList = (s.rest.drop c.gap).take c.size := String.toList_ofList
  rw [hafter, ← hlist] at hgap
  have htiles : Tiles s.offset (s.rest.take c.gap ++ ((s.take c).1.text.toList ++
      (s.take c).2.rest)) (s.rest.take c.gap :: gaps) ((s.take c).1 :: ts) := by
    refine .token hgap ?_ ?_ hkind ?_
    · rw [hlist]
      simp only [take, Span.ofRange, Span.mk.injEq]
      constructor
      · exact Nat.min_eq_left (by omega)
      · exact Nat.min_eq_left (by omega)
    · intro hempty
      rw [hempty] at hlist
      exact htext hlist.symm
    · rw [hlist]
      exact h
  rwa [hlist, ← hrest] at htiles

/-- A token before the end of the input has a text. -/
lemma take_ne_nil_of_cut {c : Cut} (h : s.cut table = .ok c) (hk : c.kind ≠ .eof) :
    (s.rest.drop c.gap).take c.size ≠ [] := by
  rcases cut_cases h with ⟨hjoins, rfl⟩ | ⟨rfl, -⟩ | ⟨a, rest, l, hrest, hl, rfl⟩
  · obtain ⟨hpos, a, rest, hdrop⟩ := exists_drop_of_joinsSelectors hjoins
    have hne : s.rest ≠ [] := fun hnil => by simp [hnil] at hdrop
    simpa [hne] using hpos.ne'
  · exact absurd rfl hk
  · simp [hrest]

/-- A step that yields no end puts its token before all that the scanner behind it yields. -/
lemma tiles_of_next (hsize : s.offset + byteLength s.rest ≤ Span.maxOffset)
    (h : s.next table = .ok (t, s')) (hk : t.kind ≠ .eof) :
    ∃ gap, ∀ gaps ts, Tiles s'.offset s'.rest gaps ts →
      Tiles s.offset s.rest (gap :: gaps) (t :: ts) := by
  obtain ⟨c, hcut, htake⟩ := next_eq_ok h
  obtain rfl : (s.take c).1 = t := congrArg Prod.fst htake
  obtain rfl : (s.take c).2 = s' := congrArg Prod.snd htake
  refine ⟨s.rest.take c.gap, fun gaps ts => tiles_take hsize ?_ (take_ne_nil_of_cut hcut hk) hk⟩
  rcases cut_cases hcut with ⟨hjoins, rfl⟩ | ⟨rfl, -⟩ | ⟨a, rest, l, hrest, hl, rfl⟩
  · obtain ⟨-, a, rest, hdrop⟩ := exists_drop_of_joinsSelectors hjoins
    obtain ⟨htrivia, hstop⟩ := trivia_of_drop hdrop
    have hgap : Gap [] (s.take ⟨.descendantCombinator, 0, triviaSize none s.rest⟩).1 _ :=
      .joining rfl (by simpa [take] using htrivia) hstop
    simpa [take] using hgap
  · exact absurd rfl hk
  · obtain ⟨htrivia, hstop⟩ := trivia_of_drop hrest
    exact .skipped htrivia hstop

/-- A step that yields the end leaves nothing but trivia before it. -/
lemma tiles_of_next_eof (hsize : s.offset + byteLength s.rest ≤ Span.maxOffset)
    (h : s.next table = .ok (t, s')) (hk : t.kind = .eof) :
    Tiles s.offset s.rest [s.rest] [.endOfInput t.span] := by
  obtain ⟨c, hcut, htake⟩ := next_eq_ok h
  obtain rfl : (s.take c).1 = t := congrArg Prod.fst htake
  obtain rfl : (s.take c).2 = s' := congrArg Prod.snd htake
  rcases cut_cases hcut with ⟨-, rfl⟩ | ⟨rfl, hnil⟩ | ⟨a, rest, l, -, hl, rfl⟩
  · cases hk
  · have hspan : (s.take ⟨.eof, triviaSize none s.rest, 0⟩).1.span =
        .point (s.offset + byteLength s.rest) := by
      have hall : s.rest.take (triviaSize none s.rest) = s.rest :=
        List.take_of_length_le (List.drop_eq_nil_iff.mp hnil)
      simp [take, hall, byteLength, Span.ofRange, Span.point, Nat.min_eq_left hsize]
    rw [hspan]
    exact .ending (gap_of_drop_eq_nil rfl hnil)
  · exact absurd hk (numberOnly_lexeme table s.previous _ hl).1

/-- All that is left of the text is what the scanner yields, with gaps. -/
lemma exists_tiles (table : Keyword.Table) (s : Scanner) {ts : List Token}
    (hsize : s.offset + byteLength s.rest ≤ Span.maxOffset) (h : (s.run table).all = .ok ts) :
    ∃ gaps, Tiles s.offset s.rest gaps ts := by
  rw [run_eq] at h
  cases hstep : s.next table with
  | error e =>
    rw [hstep] at h
    cases h
  | ok p =>
    obtain ⟨t, s'⟩ := p
    simp only [hstep] at h
    by_cases hk : t.kind = .eof
    · rw [if_pos hk] at h
      cases h
      exact ⟨_, tiles_of_next_eof hsize hstep hk⟩
    · rw [if_neg hk] at h
      obtain ⟨us, hus, rfl⟩ : ∃ us, (s'.run table).all = .ok us ∧ t :: us = ts := by
        cases hending : (s'.run table).ending with
        | error e => simp [Tokenization.all, Tokenization.cons, hending, Except.map] at h
        | ok span =>
          simp only [Tokenization.all, Tokenization.cons, hending, Except.map] at h ⊢
          exact ⟨_, rfl, Except.ok.inj h⟩
      have hshorter : s'.rest.length < s.rest.length := next_rest_lt hstep hk
      have hsize' : s'.offset + byteLength s'.rest ≤ Span.maxOffset := by
        obtain ⟨c, -, htake⟩ := next_eq_ok hstep
        obtain rfl : (s.take c).2 = s' := congrArg Prod.snd htake
        rwa [offset_add_take]
      obtain ⟨gaps, hgaps⟩ := exists_tiles table s' hsize' hus
      obtain ⟨gap, hgap⟩ := tiles_of_next hsize hstep hk
      exact ⟨gap :: gaps, hgap gaps us hgaps⟩
termination_by s.rest.length

end Scanner

/-- The tokens of a text are the text but for runs of trivia between them. -/
theorem lossless_tokenize (table : Keyword.Table) (source : String) (ts : List Token)
    (hsize : source.utf8ByteSize < 2 ^ 32) (h : (tokenize table source).all = .ok ts) :
    Lossless source ts := by
  have hfits : (Scanner.ofText source).offset + byteLength (Scanner.ofText source).rest ≤
      Span.maxOffset := by
    simp only [Scanner.ofText, byteLength_toList, Span.maxOffset]
    omega
  obtain ⟨gaps, hgaps⟩ := Scanner.exists_tiles table _ hfits h
  exact hgaps.lossless

/-- Comments of all forms: one that joins selectors, one that its own opening star closes, one that
ends with its line, and one that is open at the end. -/
def commentedText : String := "/*/A /*é*/ B\x7b// x\n*: \"ü\"\x7d /* "

/-- Its tokens; `é` and `ü` have two bytes each. -/
def commentedTokens : List Token :=
  [⟨.typeSelector, "A", ⟨3, 4⟩⟩, ⟨.descendantCombinator, " /*é*/ ", ⟨4, 12⟩⟩,
    ⟨.typeSelector, "B", ⟨12, 13⟩⟩, ⟨.leftBrace, "\x7b", ⟨13, 14⟩⟩, ⟨.star, "*", ⟨19, 20⟩⟩,
    ⟨.colon, ":", ⟨20, 21⟩⟩, ⟨.string, "\"ü\"", ⟨22, 26⟩⟩, ⟨.rightBrace, "\x7d", ⟨26, 27⟩⟩,
    ⟨.eof, "", ⟨31, 31⟩⟩]

/-- A text with comments and blanks between its tokens. -/
theorem lossless_tokenize_commentedText :
    commentedText.utf8ByteSize < 2 ^ 32 ∧
      (tokenize .builtin commentedText).all = .ok commentedTokens ∧
      Lossless commentedText commentedTokens := by
  have hsize : commentedText.utf8ByteSize < 2 ^ 32 := by decide +kernel
  have hscan : (tokenize .builtin commentedText).all = .ok commentedTokens := by decide +kernel
  exact ⟨hsize, hscan, lossless_tokenize .builtin commentedText commentedTokens hsize hscan⟩

end Token

end StyleSheet

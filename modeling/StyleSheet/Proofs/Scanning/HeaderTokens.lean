import StyleSheet.Proofs.Scanning.Header
import StyleSheet.Proofs.Spans.Source

/-!
# The tokens of a header

Where a statement can start, a header before `{` is scanned into the tokens that its forms say,
whatever follows the brace (`run_header`).

One step of the scanner takes one selector, one separator or the brace.  `Reads` puts steps
together: a part of the text is scanned into tokens of given kinds and texts, and scanning goes on
behind it.
-/

namespace StyleSheet.Token

open Text

namespace Header

variable {table : Keyword.Table} {previous : Option Kind} {attached : Bool} {rest : List Char}

/-! ### Where selectors end -/

/-- A blank or a comment ends a selector. -/
lemma headIs_endsSelector_trivia {gap : List Char} (h : Trivia gap) (hne : gap ≠ [])
    (cs : List Char) : headIs endsSelector (gap ++ cs) = true := by
  cases h with
  | nil => exact absurd rfl hne
  | blank hc _ =>
    rw [List.cons_append, headIs, endsSelector, hc]
    rfl
  | line _ _ => rfl
  | block _ _ _ => rfl

/-- Trivia end a selector if what follows them does. -/
lemma headIs_trivia {gap : List Char} (h : Trivia gap) (hrest : headIs endsSelector rest = true) :
    headIs endsSelector (gap ++ rest) = true := by
  by_cases hne : gap = []
  · rw [hne]
    exact hrest
  · exact headIs_endsSelector_trivia h hne rest

/-- A separator ends a selector. -/
lemma headIs_separator (sep : Separator) (cs : List Char) :
    headIs endsSelector (sep.chars ++ cs) = true := by
  cases sep with
  | descendant gap h hne => exact headIs_endsSelector_trivia h hne cs
  | child before after hbefore hafter =>
    rw [Separator.chars, List.append_assoc]
    exact headIs_trivia hbefore rfl
  | comma before after hbefore hafter =>
    rw [Separator.chars, List.append_assoc]
    exact headIs_trivia hbefore rfl

/-- The later selectors of a header end the one before if what follows the header does. -/
lemma headIs_later (later : List (Separator × Selector)) (hrest : headIs endsSelector rest = true) :
    headIs endsSelector (laterChars later ++ rest) = true := by
  cases later with
  | nil => exact hrest
  | cons p later =>
    rw [laterChars, List.flatMap_cons, List.append_assoc, List.append_assoc]
    exact headIs_separator p.1 _

/-- No name goes on where parts or the end of the selector follow. -/
lemma headIs_isNameChar_parts (parts : List Part) (hrest : headIs endsSelector rest = true) :
    headIs isNameChar (parts.flatMap Part.chars ++ rest) = false := by
  cases parts with
  | nil =>
    cases rest with
    | nil => rfl
    | cons c rest => exact isNameChar_of_endsSelector hrest
  | cons p parts =>
    cases p with
    | state negated name =>
      cases negated with
      | false => rfl
      | true => rfl
    | bracketed _ => rfl
    | subcontrol _ => rfl
    | className _ => rfl
    | idName _ => rfl

/-- A selector starts as selectors do. -/
lemma headIs_startsSelector (sel : Selector) (cs : List Char) :
    headIs startsSelector (sel.chars ++ cs) = true := by
  cases sel with
  | parent parts _ => rfl
  | compound head parts =>
    cases head with
    | typeName name _ _ =>
      have hfirst := name.isNameStart_first
      simp [Selector.chars, Head.chars, Name.chars, headIs, startsSelector, hfirst]
    | universal => rfl
    | className _ => rfl
    | idName _ => rfl
    | placeholder _ => rfl

/-- No trivia stands where a selector starts. -/
lemma startsTrivia_of_headIs {cs : List Char} (h : headIs startsSelector cs = true) :
    startsTrivia cs = false := by
  cases cs with
  | nil => rfl
  | cons c cs =>
    have hne {d : Char} (hd : startsSelector d = false) : c ≠ d := ne_of_class h hd
    have hblank : isBlank c = false := by
      simp [isBlank, hne (d := ' ') (by decide), hne (d := '\t') (by decide),
        hne (d := '\n') (by decide), hne (d := '\r') (by decide)]
    rw [startsTrivia, hblank, opens_eq_none (hne (by decide))]
    rfl

/-! ### Selectors as lexemes -/

/-- The size of a run that all of the characters belong to and what follows does not. -/
lemma runSize_append {p : Char → Bool} {cs : List Char} (h : ∀ c ∈ cs, p c = true)
    (hrest : headIs p rest = false) : runSize p (cs ++ rest) = cs.length := by
  have hstop : rest.takeWhile p = [] := by
    cases rest with
    | nil => rfl
    | cons c rest =>
      have hc : p c = false := hrest
      rw [List.takeWhile_cons, hc]
      rfl
  rw [runSize, List.takeWhile_append_of_pos h, hstop, List.append_nil]

section Lexemes

variable {names : List Char} (parts : List Part) (hrest : headIs endsSelector rest = true)

include hrest

/-- A selector whose first character is a mark of its head. -/
lemma selector_marked {c : Char} (hc : c ∈ ['.', '#', '%', '*'])
    (hnames : ∀ d ∈ names, isNameChar d = true) :
    selector c (names ++ (parts.flatMap Part.chars ++ rest)) =
      .ok ⟨strongest parts (Compound.empty.kind c),
        (names ++ parts.flatMap Part.chars).length⟩ := by
  have hmark : (c == '.' || c == '#' || c == '%' || c == '*') = true := by
    simpa [or_assoc] using hc
  have hwalk := scan_parts 1 hnames parts hrest
  have hone : Compound.empty.grow = ⟨1, false, false, false⟩ := rfl
  simp only [selector, hmark, if_true, hone, hwalk, kind_eq_strongest, List.length_append]
  congr 2
  omega

/-- A selector whose first character belongs to its name or to its first part. -/
lemma selector_unmarked {c : Char} {more : List Char} (hc : c ∉ ['.', '#', '%', '*'])
    (hnames : ∀ d ∈ names, isNameChar d = true)
    (htext : names ++ parts.flatMap Part.chars = c :: more) :
    selector c (more ++ rest) = .ok ⟨strongest parts (Compound.empty.kind c), more.length⟩ := by
  have hmark : (c == '.' || c == '#' || c == '%' || c == '*') = false := by
    simpa [and_assoc] using hc
  have hwalk := scan_parts 0 hnames parts hrest
  have hlength := congrArg List.length htext
  rw [List.length_append, List.length_cons] at hlength
  rw [← List.append_assoc, htext, List.cons_append, Nat.zero_add, hlength] at hwalk
  have hempty : Compound.empty = ⟨0, false, false, false⟩ := rfl
  simp only [selector, hmark, Bool.false_eq_true, if_false, hempty, hwalk, kind_eq_strongest]
  rfl

end Lexemes

/-- A letter starts a word. -/
lemma lexeme_of_isNameStart {c : Char} (hc : isNameStart c = true) :
    lexeme table previous attached c rest = word previous c rest := by
  have hne {d : Char} (hd : isNameStart d = false) : (c == d) = false := by
    simpa using ne_of_class hc hd
  have hdigit : c.isDigit = false := by
    simp only [isNameStart, Bool.or_eq_true, beq_iff_eq] at hc
    rcases hc with halpha | rfl
    · exact (Bool.or_eq_false_iff.mp (not_numeral_of_isAlpha halpha)).1
    · rfl
  simp (disch := decide) only [lexeme, punctuation?, hne, hdigit, hc, Bool.false_and, Bool.false_or,
    Bool.false_eq_true, if_false, if_true]

/-- What starts a name is no mark of a selector. -/
lemma not_mark_of_isNameStart {c : Char} (hc : isNameStart c = true) :
    c ∉ ['.', '#', '%', '*'] := by
  intro h
  simp only [List.mem_cons, List.not_mem_nil, or_false] at h
  rcases h with rfl | rfl | rfl | rfl
  all_goals exact absurd hc (by decide)

/-- A type selector is a word that is no truth value. -/
lemma word_typeName {name : Name} (htrue : String.ofList name.chars ≠ "true")
    (hfalse : String.ofList name.chars ≠ "false") (parts : List Part)
    (hrest : headIs endsSelector rest = true)
    (hstarts : selectorStarts previous (name.chars ++ (parts.flatMap Part.chars ++ rest)) = true) :
    word previous name.first (name.more ++ (parts.flatMap Part.chars ++ rest)) =
      .ok ⟨strongest parts .typeSelector, (name.more ++ parts.flatMap Part.chars).length⟩ := by
  have hmark := not_mark_of_isNameStart name.isNameStart_first
  have hkind : Compound.empty.kind name.first = .typeSelector := by
    simp only [List.mem_cons, not_or] at hmark
    simp [Compound.kind, Compound.empty, hmark]
  have hsplit : name.chars ++ parts.flatMap Part.chars =
      name.first :: (name.more ++ parts.flatMap Part.chars) := rfl
  have hword := selector_unmarked parts hrest hmark name.isNameChar_chars hsplit
  rw [hkind, List.append_assoc] at hword
  have hsize := runSize_append name.isNameChar_more (headIs_isNameChar_parts parts hrest)
  have htext : String.ofList (name.first ::
      (name.more ++ (parts.flatMap Part.chars ++ rest)).take name.more.length) =
      String.ofList name.chars := by rw [List.take_left, Name.chars]
  simp only [word, hsize, htext, beq_eq_false_iff_ne.mpr htrue, beq_eq_false_iff_ne.mpr hfalse,
    Bool.false_eq_true, if_false]
  exact (if_pos hstarts).trans hword

/-- The head of a selector with its parts is one lexeme. -/
lemma lexeme_head (hprevious : selectorMayFollow previous = true) (head : Head) (parts : List Part)
    (hrest : headIs endsSelector rest = true) (hahead : headerAhead (.plain 0) rest = true) :
    ∃ c more, head.chars ++ parts.flatMap Part.chars = c :: more ∧
      lexeme table previous attached c (more ++ rest) =
        .ok ⟨strongest parts head.kind, more.length⟩ := by
  have hstarts : selectorStarts previous (head.chars ++ (parts.flatMap Part.chars ++ rest)) =
      true := by
    rw [selectorStarts, hprevious, headerAhead_head, headerAhead_parts, hahead]
    rfl
  have hname (name : Name) : headIs isNameStart (name.chars ++ (parts.flatMap Part.chars ++ rest)) =
      true := name.isNameStart_first
  -- Only the way from a mark to the walk differs from mark to mark.
  have hmarked {c : Char} {names : List Char} (hc : c ∈ ['.', '#', '%', '*'])
      (hnames : ∀ d ∈ names, isNameChar d = true)
      (hlexeme : lexeme table previous attached c (names ++ (parts.flatMap Part.chars ++ rest)) =
        selector c (names ++ (parts.flatMap Part.chars ++ rest))) :
      ∃ d more, c :: names ++ parts.flatMap Part.chars = d :: more ∧
        lexeme table previous attached d (more ++ rest) =
          .ok ⟨strongest parts (Compound.empty.kind c), more.length⟩ := by
    refine ⟨c, names ++ parts.flatMap Part.chars, rfl, ?_⟩
    rw [List.append_assoc, hlexeme]
    exact selector_marked parts hrest hc hnames
  cases head with
  | typeName name htrue hfalse =>
    have hfirst := name.isNameStart_first
    refine ⟨name.first, name.more ++ parts.flatMap Part.chars, rfl, ?_⟩
    rw [lexeme_of_isNameStart hfirst, List.append_assoc]
    exact word_typeName htrue hfalse parts hrest hstarts
  | universal => exact hmarked (by decide) (List.forall_mem_nil _) (if_pos hstarts)
  | className name =>
    exact hmarked (by decide) name.isNameChar_chars (if_pos (hname name))
  | idName name => exact hmarked (by decide) name.isNameChar_chars (if_pos hstarts)
  | placeholder name =>
    exact hmarked (by decide) name.isNameChar_chars (if_pos (hname name))

/-- A state or a sub-control is known by what follows its first colon. -/
lemma exists_startsState {p : Part} (hp : p.isState = true ∨ p.isSubcontrol = true) :
    ∃ after, p.chars = ':' :: after ∧ ∀ cs, startsState (after ++ cs) = true := by
  cases p with
  | state negated name =>
    cases negated with
    | false =>
      have hcolon : name.first ≠ ':' := ne_of_class name.isNameStart_first (by decide)
      refine ⟨name.chars, rfl, fun cs => ?_⟩
      simp [Name.chars, startsState, name.isNameStart_first, hcolon]
    | true => exact ⟨'!' :: name.chars, rfl, fun cs => rfl⟩
  | subcontrol name => exact ⟨':' :: name.chars, rfl, fun cs => name.isNameStart_first⟩
  | bracketed pieces => simp at hp
  | className name => simp at hp
  | idName name => simp at hp

/-- The parts behind a reference to the parent are one lexeme. -/
lemma lexeme_parts {p : Part} {parts : List Part} (hp : p.isState = true ∨ p.isSubcontrol = true)
    (hrest : headIs endsSelector rest = true) :
    ∃ more, (p :: parts).flatMap Part.chars = ':' :: more ∧
      lexeme table (some .parentReference) true ':' (more ++ rest) =
        .ok ⟨strongest (p :: parts) .typeSelector, more.length⟩ := by
  obtain ⟨after, hafter, hstate⟩ := exists_startsState hp
  have htext : [] ++ (p :: parts).flatMap Part.chars =
      ':' :: (after ++ parts.flatMap Part.chars) := by
    rw [List.flatMap_cons, hafter]
    rfl
  have hwalk : selector ':' _ = _ :=
    selector_unmarked (p :: parts) hrest (by decide) (by simp) htext
  have hlexeme : lexeme table (some .parentReference) true ':'
      (after ++ parts.flatMap Part.chars ++ rest) =
      selector ':' (after ++ parts.flatMap Part.chars ++ rest) := by
    rw [List.append_assoc]
    exact if_pos (hstate _)
  exact ⟨_, htext, hlexeme.trans hwalk⟩

end Header

/-! ### Steps of the scanner -/

/-- Tokens before all that is yielded. -/
def Tokenization.prepend (ts : List Token) (after : Tokenization) : Tokenization :=
  ⟨ts ++ after.tokens, after.ending⟩

namespace Scanner

variable {table : Keyword.Table} {previous middle last : Option Kind} {rest : List Char}

/-- After the token `previous` a text is scanned into tokens of these kinds and texts, and the
scanner goes on behind it. -/
def Reads (table : Keyword.Table) (previous : Option Kind) (text : List Char)
    (ps : List (Kind × String)) (last : Option Kind) (rest : List Char) : Prop :=
  ∀ offset, ∃ ts : List Token, ts.map (fun t => (t.kind, t.text)) = ps ∧
    (Scanner.mk offset previous (text ++ rest)).run table =
      ((Scanner.mk (offset + byteLength text) last rest).run table).prepend ts

/-- Tokens that are read one text after another are those of both. -/
lemma Reads.trans {text text' : List Char} {ps qs : List (Kind × String)}
    (h : Reads table previous text ps middle (text' ++ rest))
    (h' : Reads table middle text' qs last rest) :
    Reads table previous (text ++ text') (ps ++ qs) last rest := by
  intro offset
  obtain ⟨ts, hts, hrun⟩ := h offset
  obtain ⟨us, hus, hrun'⟩ := h' (offset + byteLength text)
  refine ⟨ts ++ us, by rw [List.map_append, hts, hus], ?_⟩
  rw [List.append_assoc, hrun, hrun', byteLength_append, Nat.add_assoc]
  simp only [Tokenization.prepend, List.append_assoc]

/-- A step takes the text of its cut. -/
lemma reads_of_cut {gap text : List Char} {k : Kind} (hk : k ≠ .eof)
    (h : ∀ offset, (Scanner.mk offset previous (gap ++ text ++ rest)).cut table =
      .ok ⟨k, gap.length, text.length⟩) :
    Reads table previous (gap ++ text) [(k, String.ofList text)] (some k) rest := by
  intro offset
  have hgap : (gap ++ text ++ rest).take gap.length = gap := by
    rw [List.append_assoc, List.take_left]
  have htext : ((gap ++ text ++ rest).drop gap.length).take text.length = text := by
    rw [List.append_assoc, List.drop_left, List.take_left]
  have hrest : (gap ++ text ++ rest).drop (gap.length + text.length) = rest := by
    rw [← List.length_append, List.drop_left]
  refine ⟨[⟨k, String.ofList text, .ofRange (offset + byteLength gap)
    (offset + byteLength gap + byteLength text)⟩], rfl, ?_⟩
  rw [run_eq, next, h offset]
  simp only [Except.map, take, hgap, htext, hrest, hk, if_false, byteLength_append,
    ← Nat.add_assoc]
  rfl

/-- Trivia that ends before a character is all that is skipped. -/
lemma triviaSize_gap {gap : List Char} (hgap : Trivia gap) (hrest : startsTrivia rest = false) :
    triviaSize none (gap ++ rest) = gap.length := by
  rw [hgap.triviaSize_append, triviaSize_eq_zero hrest, Nat.zero_add]

/-- A lexeme behind trivia that joins no selectors is a step. -/
lemma reads_lexeme {gap more : List Char} {c : Char} {k : Kind} (hgap : Trivia gap)
    (hc : startsTrivia (c :: (more ++ rest)) = false)
    (hjoins : previous.any Kind.isSimpleSelector = false ∨ gap = [] ∨ startsSelector c = false)
    (h : lexeme table previous (gap.length == 0) c (more ++ rest) = .ok ⟨k, more.length⟩) :
    Reads table previous (gap ++ c :: more) [(k, String.ofList (c :: more))] (some k) rest := by
  refine reads_of_cut (numberOnly_lexeme table previous _ h).1 fun offset => ?_
  have hsplit : gap ++ c :: more ++ rest = gap ++ c :: (more ++ rest) := by simp
  have hsize := triviaSize_gap hgap hc
  have hnot : joinsSelectors ⟨offset, previous, gap ++ c :: (more ++ rest)⟩ gap.length = false := by
    rcases hjoins with hnone | rfl | hstart
    · simp [joinsSelectors, hnone]
    · simp [joinsSelectors]
    · simp [joinsSelectors, headIs, hstart]
  simp only [cut, hsplit, hsize, hnot, Bool.false_eq_true, if_false, List.drop_left, h,
    List.length_cons]

/-- Trivia between a selector and the start of another in a header is a step. -/
lemma reads_joining {gap : List Char} (hprevious : previous.any Kind.isSimpleSelector = true)
    (hgap : Trivia gap) (hne : gap ≠ []) (hrest : startsTrivia rest = false)
    (hstart : headIs startsSelector rest = true) (hahead : headerAhead (.plain 0) rest = true) :
    Reads table previous gap [(.descendantCombinator, String.ofList gap)]
      (some .descendantCombinator) rest := by
  have hreads : Reads table previous ([] ++ gap) [(.descendantCombinator, String.ofList gap)] _
      rest :=
    reads_of_cut Kind.noConfusion fun offset => ?_
  · exact hreads
  have hsize := triviaSize_gap hgap hrest
  have hpos : 0 < gap.length := List.length_pos_iff.mpr hne
  have hjoins : joinsSelectors ⟨offset, previous, gap ++ rest⟩ gap.length = true := by
    simp [joinsSelectors, hprevious, hpos, hstart, hahead]
  simp only [cut, List.nil_append, hsize, hjoins, if_true, List.length_nil]

end Scanner

/-! ### Headers -/

namespace Header

open Scanner

variable (table : Keyword.Table) {previous : Option Kind} {rest : List Char}

/-- Where a selector may follow, no selector stands before. -/
lemma any_isSimpleSelector_of_selectorMayFollow (h : selectorMayFollow previous = true) :
    previous.any Kind.isSimpleSelector = false := by
  unfold selectorMayFollow at h
  split at h
  case h_8 => cases h
  all_goals rfl

/-- The strongest kind among the parts of a selector is that of a simple selector. -/
lemma isSimpleSelector_strongest (parts : List Part) {k : Kind} (hk : k.isSimpleSelector = true) :
    (strongest parts k).isSimpleSelector = true := by
  unfold strongest
  split_ifs
  · rfl
  · rfl
  · rfl
  · exact hk

/-- The kind of a head is that of a simple selector. -/
lemma Head.isSimpleSelector_kind (head : Head) : head.kind.isSimpleSelector = true := by
  cases head
  all_goals rfl

/-- A selector is scanned into its tokens, and the last one is a simple selector. -/
lemma reads_selector {gap : List Char} (hgap : Trivia gap)
    (hprevious : selectorMayFollow previous = true) (sel : Selector)
    (hrest : headIs endsSelector rest = true) (hahead : headerAhead (.plain 0) rest = true) :
    ∃ k : Kind, k.isSimpleSelector = true ∧
      Reads table previous (gap ++ sel.chars) sel.tokens (some k) rest := by
  have hnone := any_isSimpleSelector_of_selectorMayFollow hprevious
  have hstart := startsTrivia_of_headIs (headIs_startsSelector sel rest)
  cases sel with
  | compound head parts =>
    obtain ⟨c, more, htext, hlexeme⟩ := lexeme_head hprevious head parts hrest hahead
    refine ⟨_, isSimpleSelector_strongest parts head.isSimpleSelector_kind, ?_⟩
    rw [Selector.chars, htext, List.cons_append] at hstart
    rw [Selector.chars, Selector.tokens, htext]
    exact reads_lexeme hgap hstart (.inl hnone) hlexeme
  | parent parts hparts =>
    have hparent (cs : List Char) : Reads table previous (gap ++ ['&']) [(.parentReference, "&")]
        (some .parentReference) cs :=
      reads_lexeme hgap rfl (.inl hnone) rfl
    cases parts with
    | nil => exact ⟨.parentReference, rfl, hparent rest⟩
    | cons p parts =>
      obtain ⟨more, htext, hlexeme⟩ := lexeme_parts (hparts p rfl) hrest
      have hplain : Kind.typeSelector.isSimpleSelector = true := rfl
      refine ⟨_, isSimpleSelector_strongest (p :: parts) hplain, ?_⟩
      have hsuffix : Reads table (some .parentReference) ([] ++ ':' :: more) _ _ rest :=
        reads_lexeme .nil rfl (.inr (.inl rfl)) hlexeme
      have hboth := (hparent _).trans hsuffix
      rw [List.nil_append, ← htext, List.append_assoc] at hboth
      exact hboth

/-- A mark with trivia around it is scanned into its token before the next selector. -/
lemma reads_mark {before after : List Char} (hbefore : Trivia before) (hafter : Trivia after)
    {c : Char} {mark : Kind} {j : Kind}
    (hlexeme : ∀ attached cs, lexeme table (some j) attached c cs = .ok ⟨mark, 0⟩)
    (hc : startsSelector c = false) (htrivia : ∀ cs, startsTrivia (c :: cs) = false)
    (hmark : selectorMayFollow (some mark) = true) (sel : Selector)
    (hrest : headIs endsSelector rest = true) (hahead : headerAhead (.plain 0) rest = true) :
    ∃ k : Kind, k.isSimpleSelector = true ∧
      Reads table (some j) (before ++ c :: after ++ sel.chars)
        ((mark, String.ofList [c]) :: sel.tokens) (some k) rest := by
  obtain ⟨k, hk, hsel⟩ := reads_selector table hafter hmark sel hrest hahead
  refine ⟨k, hk, ?_⟩
  have hstep : Reads table (some j) (before ++ [c]) _ _ (after ++ sel.chars ++ rest) :=
    reads_lexeme hbefore (htrivia _) (.inr (.inr hc)) (hlexeme _ _)
  have hboth := hstep.trans hsel
  simpa using hboth

/-- A separator and the selector behind it are scanned into their tokens. -/
lemma reads_link {j : Kind} (hj : j.isSimpleSelector = true) (sep : Separator) (sel : Selector)
    (hrest : headIs endsSelector rest = true) (hahead : headerAhead (.plain 0) rest = true) :
    ∃ k : Kind, k.isSimpleSelector = true ∧
      Reads table (some j) (sep.chars ++ sel.chars) (sep.token :: sel.tokens) (some k) rest := by
  cases sep with
  | descendant gap hgap hne =>
    have hmay : selectorMayFollow (some .descendantCombinator) = true := rfl
    obtain ⟨k, hk, hsel⟩ := reads_selector table .nil hmay sel hrest hahead
    have hstart := headIs_startsSelector sel rest
    have hstep : Reads table (some j) gap _ _ (sel.chars ++ rest) :=
      reads_joining hj hgap hne (startsTrivia_of_headIs hstart) hstart
        (by rw [headerAhead_selector, hahead])
    exact ⟨k, hk, hstep.trans hsel⟩
  | child before after hbefore hafter =>
    have hlexeme (attached : Bool) (cs : List Char) :
        lexeme table (some j) attached '>' cs = .ok ⟨.childCombinator, 0⟩ := by
      simp [lexeme, punctuation?, hj]
    exact reads_mark table hbefore hafter hlexeme rfl (fun _ => rfl) rfl sel hrest hahead
  | comma before after hbefore hafter =>
    exact reads_mark table hbefore hafter (fun _ _ => rfl) rfl (fun _ => rfl) rfl sel hrest hahead

/-- Behind a selector of a header it ends, and the rest of the header is ahead. -/
lemma tail_ahead (later : List (Separator × Selector)) {gap : List Char} (hgap : Trivia gap)
    (rest : List Char) :
    headIs endsSelector (laterChars later ++ (gap ++ ['{']) ++ rest) = true ∧
      headerAhead (.plain 0) (laterChars later ++ (gap ++ ['{']) ++ rest) = true := by
  rw [List.append_assoc, List.append_assoc]
  constructor
  · exact headIs_later later (headIs_trivia hgap rfl)
  · rw [headerAhead_later, headerAhead_trivia hgap]
    rfl

/-- What follows the first selector is scanned into its tokens up to the brace. -/
lemma reads_later {j : Kind} (hj : j.isSimpleSelector = true)
    (later : List (Separator × Selector)) {gap : List Char} (hgap : Trivia gap) :
    Reads table (some j) (laterChars later ++ (gap ++ ['{']))
      (laterTokens later ++ [(.leftBrace, "\x7b")]) (some .leftBrace) rest := by
  induction later generalizing j with
  | nil => exact reads_lexeme hgap rfl (.inr (.inr rfl)) rfl
  | cons p later ih =>
    obtain ⟨sep, sel⟩ := p
    obtain ⟨hends, hahead⟩ := tail_ahead later hgap rest
    obtain ⟨k, hk, hlink⟩ := reads_link table hj sep sel hends hahead
    have hboth := hlink.trans (ih hk)
    simpa [laterChars, laterTokens] using hboth

/-- A header before a brace, where a statement can start, is scanned into its tokens and the brace,
and the scanner goes on behind it. -/
theorem run_header (header : Header) (gap : List Char) (hgap : Trivia gap)
    (previous : Option Kind)
    (hprevious : previous ∈ [none, some .semicolon, some .leftBrace, some .rightBrace])
    (offset : Nat) (rest : List Char) :
    ∃ ts : List Token,
      ts.map (fun t => (t.kind, t.text)) = header.tokens ++ [(.leftBrace, "\x7b")] ∧
      (Scanner.mk offset previous (header.chars ++ gap ++ '{' :: rest)).run table =
        ((Scanner.mk (offset + byteLength (header.chars ++ gap ++ ['{'])) (some .leftBrace)
          rest).run table).prepend ts := by
  have hmay : selectorMayFollow previous = true := by
    simp only [List.mem_cons, List.not_mem_nil, or_false] at hprevious
    rcases hprevious with rfl | rfl | rfl | rfl
    all_goals rfl
  obtain ⟨hends, hahead⟩ := tail_ahead header.later hgap rest
  obtain ⟨k, hk, hfirst⟩ := reads_selector table .nil hmay header.first hends hahead
  have hheader := hfirst.trans (reads_later table hk header.later hgap)
  obtain ⟨ts, hts, hrun⟩ := hheader offset
  have htext : [] ++ header.first.chars ++ (laterChars header.later ++ (gap ++ ['{'])) =
      header.chars ++ gap ++ ['{'] := by simp [chars]
  rw [htext, List.append_assoc _ ['{']] at hrun
  refine ⟨ts, ?_, hrun⟩
  rw [hts, tokens, List.append_assoc]

/-- A brace and a bracket between quotes, a comment that its own opening star closes, a reference to
the parent with parts, and a comment that joins two selectors. -/
def mixedHeader : Header :=
  let name (c : Char) (h : isNameStart c = true) : Name := ⟨c, [], h, by simp⟩
  ⟨.compound (.typeName (name 'A' rfl) (by decide +kernel) (by decide +kernel))
      [.bracketed [.plain 'x' rfl (by decide) (by decide), .plain '=' rfl (by decide) (by decide),
        .quoted '"' ['{', ']'] (by decide) (by decide)], .state true (name 'o' rfl)],
    [(.child ['/', '*', '/'] [] (@Trivia.block [] [] (by simp) (by decide) .nil) .nil,
        .compound (.idName (name 'b' rfl)) [.subcontrol (name 'c' rfl), .className (name 'd' rfl)]),
      (.comma [' '] [] (.blank rfl .nil) .nil,
        .parent [.state false (name 'e' rfl), .subcontrol (name 'f' rfl)] (by simp)),
      (.descendant ['/', '/', 'h', '\n'] (@Trivia.line ['h'] [] (by decide) .nil) (by decide),
        .compound .universal [])]⟩

/-- The header as it is written. -/
def mixedHeaderText : String := "A[x=\"\x7b]\"]:!o/*/>#b::c.d ,&:e::f//h\n*"

/-- Its tokens. -/
def mixedHeaderTokens : List (Kind × String) :=
  [(.stateSelector, "A[x=\"\x7b]\"]:!o"), (.childCombinator, ">"),
    (.subcontrolSelector, "#b::c.d"), (.comma, ","), (.parentReference, "&"),
    (.subcontrolSelector, ":e::f"), (.descendantCombinator, "//h\n"), (.typeSelector, "*"),
    (.leftBrace, "\x7b")]

/-- The header is scanned behind a semicolon, before a text that cannot be scanned. -/
theorem run_header_mixedHeader :
    mixedHeader.chars = mixedHeaderText.toList ∧
      ∃ ts : List Token, ts.map (fun t => (t.kind, t.text)) = mixedHeaderTokens ∧
        (Scanner.mk 7 (some .semicolon) (mixedHeader.chars ++ [' '] ++ '{' :: ['?'])).run .builtin =
          ((Scanner.mk (7 + byteLength (mixedHeader.chars ++ [' '] ++ ['{'])) (some .leftBrace)
            ['?']).run .builtin).prepend ts := by
  have htokens : mixedHeader.tokens ++ [(.leftBrace, "\x7b")] = mixedHeaderTokens := by
    decide +kernel
  have hgap : Trivia [' '] := .blank rfl .nil
  obtain ⟨ts, hts, hrun⟩ := run_header .builtin mixedHeader [' '] hgap (some .semicolon)
    (by decide) 7 ['?']
  exact ⟨by decide +kernel, ts, hts.trans htokens, hrun⟩

end Header

end StyleSheet.Token

import StyleSheet.Proofs.Grammar.Streaming
import StyleSheet.Proofs.Loading

/-!
# Further spellings of keywords

A new spelling of a keyword changes nothing for texts that do without it: a text that is scanned,
read or built without the alias is scanned, read or built in the same way with it, and so are the
files that it imports (`Build.ofText_eq_ok_of_new_alias`).

The table of keywords is consulted at a word with a mark, and only there.  A word that the table
does not know ends the scan, so in a scan that succeeds every word that is looked up has a meaning,
and the alias is not among them.  Spellings that are never looked up are no exception: `!=` is an
operator, whatever the table says.
-/

namespace StyleSheet

/-! ### Tables -/

namespace Keyword.Table

/-- The second table gives each word that the first one knows the same meaning. -/
def Extends (table table' : Table) : Prop :=
  ∀ word k, table.lookup word = some k → table'.lookup word = some k

variable {table : Table} {word : String}

/-- A new word does not change what other words mean. -/
lemma lookup_insert_of_ne {other : String} (h : other ≠ word) (k : Keyword) :
    (table.insert word k).lookup other = table.lookup other := by
  unfold insert
  by_cases hmarked : isMarked word = true
  · rw [if_pos hmarked]
    simp only [lookup, List.lookup_cons, beq_false_of_ne h]
  · rw [if_neg hmarked]

/-- A table with one more word extends the table. -/
lemma extends_insert (h : table.lookup word = none) (k : Keyword) :
    table.Extends (table.insert word k) := by
  intro other k' hother
  have hne : other ≠ word := by
    rintro rfl
    rw [h] at hother
    cases hother
  rw [lookup_insert_of_ne hne, hother]

/-- A table with one more word for a kind extends the table, also if the kind is no keyword. -/
lemma extends_insertKind (h : table.lookup word = none) (kind : Token.Kind) :
    table.Extends (table.insertKind word kind) := by
  cases kind with
  | keyword k => exact extends_insert h k
  | _ => exact fun _ _ hother => hother

end Keyword.Table

/-- The last alias of the options is added to the table of those before it. -/
lemma Build.Options.keywords_withAlias (o : Options) (word : String) (k : Keyword) :
    (o.withAlias word k).keywords = o.keywords.insert word k := by
  simp only [keywords, withAlias, List.foldl_append, List.foldl_cons, List.foldl_nil]

/-! ### Scanning -/

namespace Token

variable {table table' : Keyword.Table}

/-- The table is consulted at a word with a mark, and nowhere else. -/
lemma lexeme_eq_or_keyword (table table' : Keyword.Table) (previous : Option Kind) (attached : Bool)
    (c : Char) (rest : List Char) :
    lexeme table' previous attached c rest = lexeme table previous attached c rest ∨
      (lexeme table previous attached c rest = keyword table c rest ∧
        lexeme table' previous attached c rest = keyword table' c rest) := by
  unfold lexeme
  cases punctuation? c with
  | some kind => exact .inl rfl
  | none =>
    dsimp only
    by_cases hminus : (c == '-') = true
    · simp only [if_pos hminus, true_or]
    by_cases hequal : (c == '=' && rest.head? == some '=') = true
    · simp only [if_neg hminus, if_pos hequal, true_or]
    by_cases hnotEqual : (c == '!' && rest.head? == some '=') = true
    · simp only [if_neg hminus, if_neg hequal, if_pos hnotEqual, true_or]
    by_cases hmark : (c == '@' || c == '!') = true
    · right
      simp only [if_neg hminus, if_neg hequal, if_neg hnotEqual, if_pos hmark, and_self]
    · simp only [if_neg hminus, if_neg hequal, if_neg hnotEqual, if_neg hmark, true_or]

/-- A keyword is read the same with a table that extends the first. -/
lemma keyword_of_extends (h : table.Extends table') {c : Char} {rest : List Char} {l : Lexeme}
    (hl : keyword table c rest = .ok l) : keyword table' c rest = .ok l := by
  unfold keyword at hl ⊢
  dsimp only at hl ⊢
  generalize runSize _ rest = size at hl ⊢
  cases hword : table.lookup (String.ofList (c :: rest.take size)) with
  | some k =>
    rw [hword] at hl
    rw [h _ k hword]
    exact hl
  | none =>
    rw [hword] at hl
    cases hl

/-- A token is read the same with a table that extends the first. -/
lemma lexeme_of_extends (h : table.Extends table') {previous : Option Kind} {attached : Bool}
    {c : Char} {rest : List Char} {l : Lexeme}
    (hl : lexeme table previous attached c rest = .ok l) :
    lexeme table' previous attached c rest = .ok l := by
  rcases lexeme_eq_or_keyword table table' previous attached c rest with hsame | ⟨hword, hword'⟩
  · rw [hsame, hl]
  · rw [hword] at hl
    rw [hword', keyword_of_extends h hl]

namespace Scanner

variable {s s' : Scanner} {t : Token}

/-- A token is cut the same with a table that extends the first. -/
lemma cut_of_extends (h : table.Extends table') {c : Cut} (hcut : s.cut table = .ok c) :
    s.cut table' = .ok c := by
  unfold cut at hcut ⊢
  dsimp only at hcut ⊢
  by_cases hjoins : s.joinsSelectors (triviaSize none s.rest) = true
  · rw [if_pos hjoins] at hcut ⊢
    exact hcut
  · rw [if_neg hjoins] at hcut ⊢
    cases hrest : s.rest.drop (triviaSize none s.rest) with
    | nil =>
      rw [hrest] at hcut
      exact hcut
    | cons a rest =>
      rw [hrest] at hcut
      dsimp only at hcut ⊢
      cases hl : lexeme table s.previous (triviaSize none s.rest == 0) a rest with
      | ok l =>
        rw [hl] at hcut
        rw [lexeme_of_extends h hl]
        exact hcut
      | error e =>
        rw [hl] at hcut
        cases hcut

/-- A step that succeeds is the same with more keywords. -/
lemma next_of_extends (h : table.Extends table') (hnext : s.next table = .ok (t, s')) :
    s.next table' = .ok (t, s') := by
  obtain ⟨c, hcut, htake⟩ := next_eq_ok hnext
  rw [next, cut_of_extends h hcut, Except.map, htake]

/-- A scan that succeeds is the same with more keywords. -/
lemma run_of_extends (h : table.Extends table') (s : Scanner) {span : Span}
    (hending : (s.run table).ending = .ok span) : s.run table' = s.run table := by
  rw [run_eq] at hending
  rw [run_eq, run_eq table]
  cases hnext : s.next table with
  | error e =>
    rw [hnext] at hending
    cases hending
  | ok p =>
    obtain ⟨t, s'⟩ := p
    rw [hnext] at hending
    simp only [next_of_extends h hnext] at hending ⊢
    by_cases hk : t.kind = .eof
    · simp only [if_pos hk]
    · simp only [if_neg hk] at hending ⊢
      have hshorter : s'.rest.length < s.rest.length := next_rest_lt hnext hk
      rw [run_of_extends h s' hending]
termination_by s.rest.length

end Scanner

/-- A text that scans has the same tokens with a table that extends the first. -/
lemma tokenize_of_extends (h : table.Extends table') {source : String} {span : Span}
    (hending : (tokenize table source).ending = .ok span) :
    tokenize table' source = tokenize table source :=
  Scanner.run_of_extends h (Scanner.ofText source) hending

/-- All tokens of a text that scans, the end of the input included, are the same. -/
lemma all_tokenize_of_extends (h : table.Extends table') {source : String} {tokens : List Token}
    (hall : (tokenize table source).all = .ok tokens) :
    (tokenize table' source).all = .ok tokens := by
  obtain ⟨span, hending, -⟩ := Tokenization.exists_ending_of_all hall
  rw [tokenize_of_extends h hending, hall]

end Token

/-! ### Reading and building -/

section Building

variable {table table' : Keyword.Table}

/-- A text that is a sheet is scanned to its end, so it is the same sheet with more keywords. -/
lemma Sheet.ofText_of_extends (h : table.Extends table') {source : String} {sheet : Sheet}
    (hread : ofText table source = .ok sheet) : ofText table' source = .ok sheet := by
  obtain ⟨span, hending, -⟩ := log_of_ofText_eq_ok hread
  rw [ofText_eq_ofTokens, Token.tokenize_of_extends h hending, ← ofText_eq_ofTokens]
  exact hread

namespace Build

open Evaluation

/-- A file that can be imported is the same sheet with more keywords. -/
lemma importsMore_of_keywords (h : table.Extends table') (load : Loader) (maxDepth : Nat) :
    ImportsMore ⟨load, table, maxDepth⟩ ⟨load, table', maxDepth⟩ := by
  intro path sheet hsheet
  obtain ⟨source, hload, hread⟩ := load_of_importedSheet hsheet
  have hread' : Sheet.ofText table' source = .ok sheet := Sheet.ofText_of_extends h hread
  unfold importedSheet
  dsimp only at hload ⊢
  simp only [hload, hread']

/-- What is built is built the same with a table that extends the first. -/
lemma ofText_of_keywords (h : table.Extends table') {load : Loader} {maxDepth : Nat}
    {source output : String} (hbuild : ofText ⟨load, table, maxDepth⟩ source = .ok output) :
    ofText ⟨load, table', maxDepth⟩ source = .ok output := by
  unfold ofText at hbuild ⊢
  dsimp only at hbuild ⊢
  cases hread : Sheet.ofText table source with
  | error e =>
    rw [hread] at hbuild
    cases hbuild
  | ok sheet =>
    rw [hread] at hbuild
    rw [Sheet.ofText_of_extends h hread]
    exact ofSheet_of_importsMore (importsMore_of_keywords h load maxDepth) rfl hbuild

/-- A spelling that a table does not know yet can be added to it, for any kind of token.  A text
that is scanned, is a sheet or is built without it has the same tokens, is the same sheet or has the
same output with it, whatever files the text imports.  So texts and files that are built with some
options are built with one alias more. -/
theorem ofText_eq_ok_of_new_alias :
    (∀ (table : Keyword.Table) (word : String) (kind : Token.Kind), table.lookup word = none →
      (∀ source tokens, (Token.tokenize table source).all = .ok tokens →
        (Token.tokenize (table.insertKind word kind) source).all = .ok tokens) ∧
      (∀ source sheet, Sheet.ofText table source = .ok sheet →
        Sheet.ofText (table.insertKind word kind) source = .ok sheet) ∧
      ∀ (load : Loader) (maxDepth : Nat) (source output : String),
        ofText ⟨load, table, maxDepth⟩ source = .ok output →
          ofText ⟨load, table.insertKind word kind, maxDepth⟩ source = .ok output) ∧
    ∀ (o : Options) (word : String) (k : Keyword), o.keywords.lookup word = none →
      (∀ (load : Loader) (maxDepth : Nat) (source output : String),
        ofText ⟨load, o.keywords, maxDepth⟩ source = .ok output →
          ofText ⟨load, (o.withAlias word k).keywords, maxDepth⟩ source = .ok output) ∧
      ∀ (read : Reader) (entry output : String),
        ofFile read o.keywords o.includes entry = .ok output →
          ofFile read (o.withAlias word k).keywords (o.withAlias word k).includes entry =
            .ok output := by
  constructor
  · intro table word kind hnew
    have hextends := Keyword.Table.extends_insertKind hnew kind
    refine ⟨?_, ?_, ?_⟩
    · exact fun source tokens hall => Token.all_tokenize_of_extends hextends hall
    · exact fun source sheet hread => Sheet.ofText_of_extends hextends hread
    · exact fun load maxDepth source output hbuild => ofText_of_keywords hextends hbuild
  · intro o word k hnew
    have hextends := Keyword.Table.extends_insert hnew k
    rw [Options.keywords_withAlias]
    constructor
    · exact fun load maxDepth source output hbuild => ofText_of_keywords hextends hbuild
    · intro read entry output hbuild
      unfold ofFile at hbuild ⊢
      cases hread : read entry with
      | error cause =>
        rw [hread] at hbuild
        cases hbuild
      | ok source =>
        rw [hread] at hbuild
        exact ofText_of_keywords hextends hbuild

/-- A file that compares two words. -/
def comparingFiles : Table String := ⟨[("m", "@if a != b \x7bA\x7bx:red !important;\x7d\x7d")]⟩

/-- With `!=` as another spelling of a keyword it is still an operator, in the text and in the file
that it imports.  A new spelling of `@import` leaves the old one as it is, and it can be written
itself only once it is in the table. -/
theorem ofText_eq_ok_of_new_alias_comparingFiles :
    ofText ⟨.ofTable comparingFiles, Keyword.Table.builtin.insertKind "!=" (.keyword .atImport), 2⟩
      "@import 'm';" = .ok "A\x7bx:red !important;\x7d" ∧
    ofText ⟨.ofTable comparingFiles, (Options.empty.withAlias "@use" .atImport).keywords, 2⟩
      "@import 'm';" = .ok "A\x7bx:red !important;\x7d" ∧
    (Token.tokenize .builtin "@use 'm';").all = .error (.unknown "@use" ⟨0, 4⟩) ∧
    ofText ⟨.ofTable comparingFiles, (Options.empty.withAlias "@use" .atImport).keywords, 2⟩
      "@use 'm';" = .ok "A\x7bx:red !important;\x7d" := by
  obtain ⟨htable, hoptions⟩ := ofText_eq_ok_of_new_alias
  have hbuild : ofText ⟨.ofTable comparingFiles, .builtin, 2⟩ "@import 'm';" =
      .ok "A\x7bx:red !important;\x7d" := by
    decide +kernel
  refine ⟨?_, ?_, by decide +kernel, by decide +kernel⟩
  · exact (htable .builtin "!=" (.keyword .atImport) (by decide)).2.2 _ _ _ _ hbuild
  · exact (hoptions .empty "@use" .atImport (by decide)).1 _ _ _ _ hbuild

end Build

end Building

end StyleSheet

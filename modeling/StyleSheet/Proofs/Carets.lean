import StyleSheet.Build
import StyleSheet.Proofs.Loading
import StyleSheet.Proofs.Marks
import StyleSheet.Proofs.Spans.Faults

/-!
# Carets under the line of an error

The carets of a printed error can go beyond the line above them.  There are as many of them as the
span of the error has characters, but of the source only one line is shown.  They stay under it just
if all of the span but its last character is shown (`Build.isUnderLine_iff_of_error`).

Whether this can fail depends on the cause.  What is no token, a delimiter that is never closed, an
undefined variable and a stray `&` stand in one line, and their carets never go beyond it.  All
other errors of a source without imports can stand at something that goes over several lines, or at
the end of a source behind carriage returns (`Build.exists_not_isUnderLine`).
-/

namespace StyleSheet

open Text

namespace Diagnostic.Code

variable {source : String}

/-- An error with the code may stand at the span: it lies in the source, and in one line of it if
all errors with the code do. -/
structure MayMark (source : String) (code : Code) (s : Span) : Prop where
  liesIn : s.LiesIn source
  oneLine : code ∈ Code.oneLine → s.OneLine source

/-- Where a code may mark several lines, the span needs only lie in the source. -/
lemma mayMark_of_notMem {code : Code} {s : Span} (hs : s.LiesIn source)
    (hcode : code ∉ Code.oneLine) : MayMark source code s :=
  ⟨hs, fun h => absurd h hcode⟩

end Diagnostic.Code

open Diagnostic.Code

/-! ### Errors of reading -/

/-- The token lies in the source, and in one line of it if it is of a kind that does. -/
structure Token.LiesIn (source : String) (t : Token) : Prop where
  span : t.span.LiesIn source
  oneLine : t.kind ∈ oneLineKinds → t.span.OneLine source

section Source

variable {source : String} (hsize : source.utf8ByteSize ≤ Span.maxOffset)

include hsize

/-- All tokens of a source lie in it. -/
lemma Token.liesIn_of_mem_tokenize (table : Keyword.Table) :
    ∀ t ∈ (tokenize table source).tokens, t.LiesIn source := fun t ht =>
  ⟨(liesIn_tokenize table hsize).1 t ht, (oneLine_tokenize table hsize).1 t ht⟩

/-- Scanning a source ends in it or with an error that may be marked there. -/
lemma Token.endsIn_tokenize (table : Keyword.Table) :
    EndsIn (Token.LiesIn source) (fun e => MayMark source e.code e.span)
      (tokenize table source).ending := by
  have hspan := (liesIn_tokenize table hsize).2
  have hunknown := (oneLine_tokenize table hsize).2
  cases hending : (tokenize table source).ending with
  | ok span =>
    rw [hending] at hspan
    exact ⟨hspan, fun hkind => absurd hkind (show Kind.eof ∉ oneLineKinds by decide)⟩
  | error e =>
    rw [hending] at hspan
    refine ⟨hspan, fun hcode => hunknown e hending ?_⟩
    cases e with
    | unknown text span => rfl
    | unterminated what span =>
      exact absurd hcode (show Diagnostic.Code.unterminated ∉ oneLine by decide)

omit hsize in
/-- An error that stands at tokens of the source may be marked there. -/
lemma Sheet.ReadError.StandsAt.mayMark {e : ReadError}
    (h : e.StandsAt (Token.LiesIn source) (fun e => MayMark source e.code e.span)) :
    MayMark source e.code e.span := by
  cases e with
  | scan e => exact h
  | unexpected wanted kind span =>
    obtain ⟨t, ht, -, rfl⟩ := h
    exact mayMark_of_notMem ht.span (show Diagnostic.Code.unexpectedToken ∉ oneLine by decide)
  | expectedExpression kind span =>
    obtain ⟨t, ht, -, rfl⟩ := h
    exact mayMark_of_notMem ht.span (show Diagnostic.Code.expectedExpression ∉ oneLine by decide)
  | unclosed d span =>
    obtain ⟨t, ht, hkind, rfl⟩ := h
    refine ⟨ht.span, fun _ => ht.oneLine ?_⟩
    rw [hkind]
    cases d <;> decide

/-! ### Faults of an evaluation -/

omit hsize in
/-- A span that is made of spans of tokens lies in the source. -/
lemma Span.Made.liesIn {s : Span} (h : s.Made (Token.LiesIn source)) : s.LiesIn source :=
  h.located (fun _ _ => Span.LiesIn.merge) Span.liesIn_zero fun _ ht => ht.span

omit hsize in
/-- All faults of a statement without imports may be marked in the source. -/
lemma Stmt.Built.raisesMarked {s : Stmt} (h : s.Built (Token.LiesIn source))
    (himports : Sheet.importsOf s = []) :
    s.RaisesOnly fun fault span => MayMark source fault.code span := by
  refine h.raisesOnly ?_ ?_ (fun fault span hspan => mayMark_of_notMem hspan.liesIn) himports
  · intro t ht hkind
    refine ⟨ht.span, fun _ => ht.oneLine ?_⟩
    rw [hkind]
    decide
  · intro t span ht hkind _
    have hline : t.span.OneLine source := ht.oneLine (by rw [hkind]; decide)
    rw [hline.isEmpty_eq_false]
    exact ⟨ht.span, fun _ => hline⟩

end Source

/-- The paths that a text may import; none if it is not a sheet. -/
def Sheet.importsOfText (table : Keyword.Table) (source : String) : List String :=
  match ofText table source with
  | .ok sheet => importsOfAll sheet
  | .error _ => []

namespace Build

variable {setting : Setting} {source : String}

/-- Every error of a source without imports may be marked in the source. -/
lemma mayMark_of_ofText_eq_error (hsize : source.utf8ByteSize ≤ Span.maxOffset)
    (himports : Sheet.importsOfText setting.keywords source = []) {e : BuildError}
    (herror : ofText setting source = .error e) {code : Diagnostic.Code} {span : Span}
    (hcode : e.code? = some code) (hspan : e.span? = some span) : MayMark source code span := by
  obtain ⟨hok, hfail⟩ := Sheet.built_ofText
    (Token.liesIn_of_mem_tokenize hsize setting.keywords) (Token.endsIn_tokenize hsize _)
  unfold ofText at herror
  unfold Sheet.importsOfText at himports
  cases hread : Sheet.ofText setting.keywords source with
  | error readError =>
    rw [hread] at herror
    cases herror
    cases hcode
    cases hspan
    exact (hfail readError hread).mayMark
  | ok sheet =>
    rw [hread] at herror himports
    have hraises : ∀ s ∈ sheet, s.RaisesOnly fun fault span => MayMark source fault.code span :=
      fun s hs => (hok sheet hread s hs).raisesMarked (Sheet.importsOf_eq_nil himports s hs)
    have hrun : Evaluation.RaisesOnly _ (Evaluation.runAll setting _ none sheet) :=
      Evaluation.raisesOnly_runAll (Evaluation.raisesOnly_runUpTo setting setting.maxDepth) none
        hraises
    have hfailed := (hrun .initial Environment.knows_initial).2
    simp only [ofSheet_eq] at herror
    split at herror
    · cases herror
    · rename_i evalError t hresult
      cases herror
      obtain ⟨fault, place, rfl, hmark⟩ := hfailed evalError (by rw [hresult])
      cases hcode
      cases hspan
      exact hmark
    · cases herror
      cases hcode

/-! ### The carets of an error -/

/-- The diagnostic of the error that a build ends with. -/
def diagnosis? (setting : Setting) (source : String) : Option Diagnostic :=
  match ofText setting source with
  | .ok _ => none
  | .error e => e.diagnostic?

/-- A diagnostic has the code of its error, and one label at its span. -/
lemma exists_labels_eq {e : BuildError} {d : Diagnostic} (h : e.diagnostic? = some d) :
    ∃ span message, e.code? = some d.code ∧ e.span? = some span ∧ d.labels = [⟨span, message⟩] := by
  cases e with
  | read e =>
    cases h
    cases e with
    | _ => exact ⟨_, _, rfl, rfl, rfl⟩
  | eval e =>
    cases h
    exact ⟨_, _, rfl, rfl, rfl⟩
  | file path cause => cases h
  | tooDeep => cases h

/-- Every diagnosis of a source without imports has one label, which marks a part of the source. -/
lemma exists_mark_of_diagnosis (hsize : source.utf8ByteSize ≤ Span.maxOffset)
    (himports : Sheet.importsOfText setting.keywords source = []) {d : Diagnostic}
    (hd : diagnosis? setting source = some d) :
    ∃ (m : Mark source) (message : String), d.labels = [⟨m.span, message⟩] ∧
      (d.code ∈ Diagnostic.Code.oneLine → m.span.OneLine source) := by
  unfold diagnosis? at hd
  cases herror : ofText setting source with
  | ok output =>
    rw [herror] at hd
    cases hd
  | error e =>
    rw [herror] at hd
    obtain ⟨span, message, hcode, hspan, hlabels⟩ := exists_labels_eq hd
    have hmark := mayMark_of_ofText_eq_error hsize himports herror hcode hspan
    obtain ⟨m, rfl⟩ := exists_mark hmark.liesIn
    exact ⟨m, message, hlabels, hmark.oneLine⟩

/-- The carets of a mark in one line stay under the line. -/
lemma isUnderLine_of_oneLine {m : Mark source} (h : m.span.OneLine source) : m.IsUnderLine := by
  obtain ⟨text, hslice, hne, hline⟩ := h
  obtain rfl : m.marked = text := Option.some.inj (m.slice?_span.symm.trans hslice)
  exact m.isUnderLine_of_inline hne hline

/-- What is printed for an error of a source without imports marks a text of the source.  Its carets
stay under the line, or go one place beyond it, just if the line shows all of the text but its last
character.  So they do in a source of one line, and for the causes that stand in one line. -/
theorem isUnderLine_iff_of_error (setting : Setting) (path source : String)
    (hsize : source.utf8ByteSize < Span.maxOffset)
    (himports : Sheet.importsOfText setting.keywords source = []) (d : Diagnostic)
    (hd : diagnosis? setting source = some d) :
    ∃ (m : Mark source) (message : String), d.labels = [⟨m.span, message⟩] ∧
      d.render path source = Diagnostic.report m d message path ∧
      (m.IsUnderLine ↔ lastLine m.before ++ m.marked.dropLast <+: m.line) ∧
      ((∀ c ∈ source.toList, c ≠ '\n' ∧ c ≠ '\r') → m.IsUnderLine) ∧
      (d.code ∈ Diagnostic.Code.oneLine → m.IsUnderLine) := by
  obtain ⟨m, message, hlabels, hline⟩ := exists_mark_of_diagnosis hsize.le himports hd
  refine ⟨m, message, hlabels, Diagnostic.render_eq_report m hsize hlabels path, m.isUnderLine_iff,
    m.isUnderLine_of_source, fun hcode => ?_⟩
  exact isUnderLine_of_oneLine (hline hcode)

/-- Nothing can be imported. -/
def plainSetting : Setting where
  load := Loader.ofTable ⟨[]⟩
  keywords := .builtin

/-- A variable that is not bound, behind a wide character in a line that ends with a carriage
return. -/
def unboundText : String := "A\x7b\n x: 'ü' + $y;\r\n\x7d"

/-- The line is shown without the carriage return, and the carets stay under it. -/
theorem isUnderLine_iff_of_error_unboundText :
    unboundText.utf8ByteSize < Span.maxOffset ∧ Sheet.importsOfText .builtin unboundText = [] ∧
      ∃ d, diagnosis? plainSetting unboundText = some d ∧
        ∃ (m : Mark unboundText) (message : String), d.labels = [⟨m.span, message⟩] ∧
          d.render "a.qss" unboundText = Diagnostic.report m d message "a.qss" ∧
          m.IsUnderLine := by
  have hsize : unboundText.utf8ByteSize < Span.maxOffset := by decide
  have himports : Sheet.importsOfText .builtin unboundText = [] := by decide +kernel
  have hd : diagnosis? plainSetting unboundText = some ⟨.undefinedVariable,
      "undefined variable `$y`", [⟨⟨14, 16⟩, "not defined in this scope"⟩], []⟩ := by
    decide +kernel
  obtain ⟨m, message, hlabels, hrender, -, -, hline⟩ :=
    isUnderLine_iff_of_error plainSetting "a.qss" unboundText hsize himports _ hd
  exact ⟨hsize, himports, _, hd, m, message, hlabels, hrender, hline (by decide)⟩

/-- A sum over two lines. -/
def brokenSum : String := "$x: 1px +\n1em;"

/-- Nine carets stand under the last five characters of a line. -/
theorem exists_not_isUnderLine_brokenSum :
    Sheet.importsOfText .builtin brokenSum = [] ∧
      ∃ d, diagnosis? plainSetting brokenSum = some d ∧
        d.render "input.qss" brokenSum =
          "error[E2004]: cannot apply `+` to dimension (px) and dimension (em)\n" ++
          " --> input.qss:1:5\n" ++
          "  |\n" ++
          "1 | $x: 1px +\n" ++
          "  |     ^^^^^^^^^ incompatible operands\n" ∧
        ∃ (m : Mark brokenSum) (message : String), d.labels = [⟨m.span, message⟩] ∧
          ¬ m.IsUnderLine := by
  have hd : diagnosis? plainSetting brokenSum = some ⟨.operandMismatch,
      "cannot apply `+` to dimension (px) and dimension (em)",
      [⟨⟨4, 13⟩, "incompatible operands"⟩], []⟩ := by
    decide +kernel
  refine ⟨by decide +kernel, _, hd, by decide +kernel, ?_⟩
  exact ⟨⟨"$x: ".toList, "1px +\n1em".toList, ";".toList, by decide⟩, _, rfl, by decide⟩

/-- Errors with all other codes can go beyond the line; only imports fail with the last two. -/
theorem exists_not_isUnderLine (code : Diagnostic.Code) (hline : code ∉ Diagnostic.Code.oneLine)
    (himport : code ∉ [Diagnostic.Code.importUnreadable, .importCycle]) :
    ∃ (source : String) (m : Mark source), Sheet.importsOfText .builtin source = [] ∧
      (diagnosis? plainSetting source).map (fun d => (d.code, d.primary?)) =
        some (code, some m.span) ∧ ¬ m.IsUnderLine := by
  cases code with
  | unterminated =>
    exact ⟨_, .between "" "'a\nbc" "", by decide +kernel, by decide +kernel, by decide⟩
  | unexpectedToken =>
    exact ⟨_, .between "$x " "'a\nbc'" ";", by decide +kernel, by decide +kernel, by decide⟩
  | expectedExpression =>
    exact ⟨_, .between "$x:\r\r" "" "", by decide +kernel, by decide +kernel, by decide⟩
  | undefinedMixin =>
    exact ⟨_, .between "" "@include\n\nm" ";", by decide +kernel, by decide +kernel, by decide⟩
  | missingArguments =>
    exact ⟨_, .between "@mixin m($x)\x7b\x7d" "@include m(\n\n)" ";", by decide +kernel,
      by decide +kernel, by decide⟩
  | operandMismatch =>
    exact ⟨_, .between "$x:" "1px+\n1em" ";", by decide +kernel, by decide +kernel, by decide⟩
  | divisionByZero =>
    exact ⟨_, .between "$x:" "1/\n\n0" ";", by decide +kernel, by decide +kernel, by decide⟩
  | strayDeclaration =>
    exact ⟨_, .between "" "x:\n\n1" ";", by decide +kernel, by decide +kernel, by decide⟩
  | importUnreadable => exact absurd himport (by decide)
  | importCycle => exact absurd himport (by decide)
  | _ => exact absurd hline (by decide)

end Build

end StyleSheet

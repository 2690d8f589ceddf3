import StyleSheet.Build
import StyleSheet.Proofs.Spans.Blame
import StyleSheet.Proofs.Spans.Origin
import StyleSheet.Proofs.Spans.Reading

/-!
# The text that the span of an error lies in

The spans of a sheet lie in the text that it was read from.  A build that fails reports one span,
and the code that the error stands in tells the text: the source, unless the error stands in the
body of a mixin that the source does not declare.  Such a mixin comes from an imported file, and
the span is one of that file.  Both cases occur: an error that is raised while a file is imported
is moved to the import, and one that is raised when a mixin of the file is expanded later is not.
-/

namespace StyleSheet

/-- The mixin is declared in the sheet that the text is read as. -/
def Mixin.DeclaredInText (table : Keyword.Table) (m : Mixin) (text : String) : Prop :=
  ∃ sheet, Sheet.ofText table text = .ok sheet ∧ m.DeclaredIn sheet

/-- All spans in the body of a mixin lie in the text that declares it. -/
lemma Mixin.DeclaredInText.liesIn_body {table : Keyword.Table} {m : Mixin} {text : String}
    (h : m.DeclaredInText table text) (hsize : text.utf8ByteSize ≤ Span.maxOffset) :
    ∀ s ∈ m.body, s.Located (Span.LiesIn text) := by
  obtain ⟨sheet, hread, hm⟩ := h
  exact hm.located_body ((Sheet.liesIn_ofText table hsize).1 sheet hread)

/-- A loader from a table loads only what the table holds. -/
lemma Loader.mem_entries_of_ofTable {files : Table String} {path text : String}
    (h : ofTable files path = .ok text) : (path, text) ∈ files.entries := by
  unfold ofTable at h
  cases hget : files.get? path with
  | none =>
    rw [hget] at h
    cases h
  | some source =>
    rw [hget] at h
    obtain rfl : source = text := Except.ok.inj h
    exact Table.mem_entries_of_get? hget

namespace Evaluation

/-- A sheet that is imported is the reading of the text of its file. -/
lemma load_of_importedSheet {setting : Setting} {path : String} {sheet : Sheet}
    (h : importedSheet setting path = .ok sheet) :
    ∃ text, setting.load path = .ok text ∧ Sheet.ofText setting.keywords text = .ok sheet := by
  unfold importedSheet at h
  cases hload : setting.load path with
  | error e =>
    rw [hload] at h
    cases h
  | ok text =>
    rw [hload] at h
    dsimp only at h
    cases hread : Sheet.ofText setting.keywords text with
    | error e =>
      rw [hread] at h
      cases h
    | ok imported =>
      rw [hread] at h
      obtain rfl : imported = sheet := Except.ok.inj h
      exact ⟨text, rfl, hread⟩

end Evaluation

namespace Build

open Evaluation

/-- The record of a build; without events if the text is not a sheet. -/
def trace (setting : Setting) (source : String) : List Event :=
  match Sheet.ofText setting.keywords source with
  | .ok sheet => (Session.initial.traced setting sheet).1
  | .error _ => []

/-- A build that fails at a span fails in the reading of the text or in the run of its sheet. -/
lemma failed_of_ofText_eq_error {setting : Setting} {source : String} {e : BuildError} {span : Span}
    (h : ofText setting source = .error e) (hspan : e.span? = some span) :
    (∃ cause, Sheet.ofText setting.keywords source = .error cause ∧ cause.span = span ∧
      trace setting source = []) ∨
    ∃ sheet cause t, Sheet.ofText setting.keywords source = .ok sheet ∧ cause.span = span ∧
      Traced.runSheet setting sheet .initial = (trace setting source, .failed cause, t) := by
  unfold ofText at h
  unfold trace
  cases hread : Sheet.ofText setting.keywords source with
  | error cause =>
    rw [hread] at h
    obtain rfl : BuildError.read cause = e := Except.error.inj h
    exact .inl ⟨cause, rfl, Option.some.inj hspan, rfl⟩
  | ok sheet =>
    rw [hread] at h
    dsimp only at h ⊢
    unfold ofSheet at h
    rw [Session.program_eq_conclude_traced] at h
    unfold Session.traced at h ⊢
    rcases hrun : Traced.runSheet setting sheet Session.initial.state with ⟨es, o, t⟩
    rw [hrun] at h
    cases o with
    | ok out => cases h
    | failed cause =>
      obtain rfl : BuildError.eval cause = e := Except.error.inj h
      exact .inr ⟨sheet, cause, t, rfl, Option.some.inj hspan, hrun⟩
    | tooDeep =>
      obtain rfl : BuildError.tooDeep = e := Except.error.inj h
      cases hspan

/-- A build that fails at a span, in a source whose mixins are those that can be blamed, fails at a
span of the source. -/
lemma liesIn_source_of_blamed {setting : Setting} {source : String} {e : BuildError} {span : Span}
    (hsize : source.utf8ByteSize ≤ Span.maxOffset) (h : ofText setting source = .error e)
    (hspan : e.span? = some span)
    (hblamed : ∀ m, Trace.blamed (trace setting source) = some m →
      m.DeclaredInText setting.keywords source) : span.LiesIn source := by
  rcases failed_of_ofText_eq_error h hspan with
    ⟨cause, hread, rfl, -⟩ | ⟨sheet, cause, t, hread, rfl, hrun⟩
  · exact (Sheet.liesIn_ofText _ hsize).2 cause hread
  · refine Traced.span_of_failed_runSheet hrun ?_
    cases hm : Trace.blamed (trace setting source) with
    | none => exact (Sheet.liesIn_ofText _ hsize).1 sheet hread
    | some m => exact (hblamed m hm).liesIn_body hsize

/-- A mixin that is blamed comes from the source or from a file that was imported, and the span lies
in the body of the mixin. -/
lemma declaredInText_of_blamed {setting : Setting} {source : String} {e : BuildError} {span : Span}
    (h : ofText setting source = .error e) (hspan : e.span? = some span) {m : Mixin}
    (hm : Trace.blamed (trace setting source) = some m) :
    (m.DeclaredInText setting.keywords source ∨ ∃ path imported text,
      .importBegun path imported ∈ trace setting source ∧ setting.load path = .ok text ∧
        m.DeclaredInText setting.keywords text) ∧
    ∀ P, (∀ s ∈ m.body, s.Located P) → P span := by
  rcases failed_of_ofText_eq_error h hspan with
    ⟨cause, -, -, hnone⟩ | ⟨sheet, cause, t, hread, rfl, hrun⟩
  · rw [hnone] at hm
    cases hm
  · constructor
    · rcases Traced.declaredIn_of_entered hrun (Trace.entered_of_blamed hm) with
        hin | ⟨path, imported, hbegun, himported, hin⟩
      · exact .inl ⟨sheet, hread, hin⟩
      · obtain ⟨text, hload, hreads⟩ := load_of_importedSheet himported
        exact .inr ⟨path, imported, text, hbegun, hload, imported, hreads, hin⟩
    · intro P hP
      refine Traced.span_of_failed_runSheet hrun ?_
      rw [hm]
      exact hP

/-- The span of a failed build lies in the source, unless the error stands in the body of a mixin
that the source does not declare.  Then it lies in the text of a file that was imported and that
declares the mixin. -/
theorem liesIn_of_ofText_eq_error (setting : Setting) (source : String) (e : BuildError)
    (span : Span) (hsize : source.utf8ByteSize ≤ Span.maxOffset)
    (h : ofText setting source = .error e) (hspan : e.span? = some span) :
    ((∀ m, Trace.blamed (trace setting source) = some m →
      m.DeclaredInText setting.keywords source) → span.LiesIn source) ∧
    ∀ m, Trace.blamed (trace setting source) = some m →
      ¬ m.DeclaredInText setting.keywords source → ∃ path imported text,
        .importBegun path imported ∈ trace setting source ∧ setting.load path = .ok text ∧
          m.DeclaredInText setting.keywords text ∧
            (text.utf8ByteSize ≤ Span.maxOffset → span.LiesIn text) := by
  constructor
  · exact liesIn_source_of_blamed hsize h hspan
  · intro m hm hforeign
    obtain ⟨horigin, hbody⟩ := declaredInText_of_blamed h hspan hm
    rcases horigin with hin | ⟨path, imported, text, hbegun, hload, hin⟩
    · exact absurd hin hforeign
    · exact ⟨path, imported, text, hbegun, hload, hin, fun htext =>
        hbody _ (hin.liesIn_body htext)⟩

/-- A file that declares a mixin behind a long comment; the mixin uses a variable that is not
bound. -/
def mixinFile : String := "/*                              */@mixin m\x7bx:$y\x7d"

/-- A source that imports the mixin and expands it after the import. -/
def includingSource : String := "@import 'm';A\x7b@include m;\x7d"

def includingSetting : Setting where
  load := Loader.ofTable ⟨[("m", mixinFile)]⟩
  keywords := .builtin

/-- The error stands far behind the end of the source. -/
lemma ofText_includingSource :
    ∃ e, ofText includingSetting includingSource = .error e ∧ e.span? = some ⟨45, 47⟩ := by
  have hspan : (match ofText includingSetting includingSource with
      | .error e => e.span?
      | .ok _ => none) = some ⟨45, 47⟩ := by
    decide +kernel
  cases hbuild : ofText includingSetting includingSource with
  | error e =>
    rw [hbuild] at hspan
    exact ⟨e, rfl, hspan⟩
  | ok output =>
    rw [hbuild] at hspan
    cases hspan

/-- The source has 26 bytes. -/
lemma not_liesIn_includingSource : ¬ Span.LiesIn includingSource ⟨45, 47⟩ := by
  intro h
  exact absurd h.inside (by decide)

/-- The error of the expanded mixin lies in the imported file. -/
theorem liesIn_of_ofText_eq_error_includingSource :
    ∃ e m, ofText includingSetting includingSource = .error e ∧ e.span? = some ⟨45, 47⟩ ∧
      Trace.blamed (trace includingSetting includingSource) = some m ∧
        m.DeclaredInText .builtin mixinFile ∧ Span.LiesIn mixinFile ⟨45, 47⟩ := by
  obtain ⟨e, hbuild, hspan⟩ := ofText_includingSource
  have hsize : includingSource.utf8ByteSize ≤ Span.maxOffset := by decide
  obtain ⟨hsource, hfile⟩ := liesIn_of_ofText_eq_error _ _ e _ hsize hbuild hspan
  -- the span is none of the source, so some mixin is blamed that the source does not declare
  have hforeign : ∃ m, Trace.blamed (trace includingSetting includingSource) = some m ∧
      ¬ m.DeclaredInText .builtin includingSource := by
    by_contra hnone
    refine not_liesIn_includingSource (hsource fun m hm => ?_)
    by_contra hdeclared
    exact hnone ⟨m, hm, hdeclared⟩
  obtain ⟨m, hm, hdeclared⟩ := hforeign
  obtain ⟨path, imported, text, -, hload, hin, hlies⟩ := hfile m hm hdeclared
  have hmem : (path, text) ∈ [("m", mixinFile)] := Loader.mem_entries_of_ofTable hload
  obtain ⟨rfl, rfl⟩ := Prod.mk.inj (List.mem_singleton.mp hmem)
  exact ⟨e, m, hbuild, hspan, hm, hin, hlies (by decide)⟩

/-- Not every error of a build lies in the source. -/
theorem exists_ofText_eq_error_not_liesIn :
    ∃ setting source e span, source.utf8ByteSize ≤ Span.maxOffset ∧
      ofText setting source = .error e ∧ e.span? = some span ∧ ¬ span.LiesIn source := by
  obtain ⟨e, hbuild, hspan⟩ := ofText_includingSource
  exact ⟨_, _, e, _, by decide, hbuild, hspan, not_liesIn_includingSource⟩

end Build

end StyleSheet

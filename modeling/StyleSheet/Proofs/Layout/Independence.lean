import Mathlib.Data.List.Forall2
import StyleSheet.Proofs.Grammar.Acceptance
import StyleSheet.Proofs.Grammar.Simulation
import StyleSheet.Proofs.Layout.Evaluation
import StyleSheet.Proofs.Loading

/-!
# Independence of layout

Texts with the same tokens are built in the same way, whatever stands between the tokens and
wherever they stand (`Build.ofText_eq_of_same_tokens`).  Both are read as the same sheet up to
spans, because their windows are read in step, and sheets that are the same up to spans are
evaluated alike.
-/

namespace StyleSheet

/-- Tokens of one kind and text are the same up to spans. -/
lemma Token.mapSpan_forget_eq {t t' : Token} (h : (t.kind, t.text) = (t'.kind, t'.text)) :
    t.mapSpan Span.forget = t'.mapSpan Span.forget := by
  obtain ⟨hkind, htext⟩ := Prod.mk.inj h
  rw [mapSpan, mapSpan, hkind, htext]
  rfl

namespace Sheet

/-- Windows on tokens with the same kinds and texts. -/
def sameTokens (span span' : Span) : Pairing Cursor Cursor where
  Pair c d := ∃ before before' ts ts', c = Cursor.on before span ts ∧
    d = Cursor.on before' span' ts' ∧
      List.Forall₂ (fun t t' => t.mapSpan Span.forget = t'.mapSpan Span.forget) ts ts'
  spans := Span.forget
  Stop _ := False
  merge := keepsMerge_forget
  before _ := rfl
  current := by
    rintro _ _ ⟨before, before', ts, ts', rfl, rfl, h⟩
    rcases h with _ | ⟨hfirst, _ | ⟨hsecond, h⟩⟩
    · rfl
    · exact hfirst
    · exact hfirst
  ahead := by
    rintro _ _ ⟨before, before', ts, ts', rfl, rfl, h⟩
    rcases h with _ | ⟨hfirst, _ | ⟨hsecond, h⟩⟩
    · rfl
    · rfl
    · exact (Token.eq_of_mapSpan_eq hsecond).1
  size_le := by
    rintro _ _ ⟨before, before', ts, ts', rfl, rfl, h⟩
    refine Nat.le_of_eq ?_
    change Cursor.size _ = Cursor.size _
    rcases h with _ | ⟨hfirst, _ | ⟨hsecond, h⟩⟩
    · rfl
    · rw [Cursor.on, Cursor.on, Cursor.size, Cursor.size, (Token.eq_of_mapSpan_eq hfirst).1]
      rfl
    · rw [Cursor.on, Cursor.on, Cursor.size, Cursor.size, (Token.eq_of_mapSpan_eq hfirst).1,
        (Token.eq_of_mapSpan_eq hsecond).1, h.length_eq]
  advance := by
    rintro _ _ ⟨before, before', ts, ts', rfl, rfl, h⟩ hc
    refine .inr (.inr ?_)
    cases h with
    | nil => exact absurd rfl hc
    | cons hfirst h =>
      rw [Cursor.advance_on_cons, Cursor.advance_on_cons]
      exact ⟨_, _, rfl, rfl, _, _, _, _, rfl, rfl, h⟩

section Text

variable {table : Keyword.Table} {source source' : String} {ts ts' : List Token}

/-- Texts with the same tokens are read as the same sheet up to spans, or with the same error. -/
lemma mapSpans_ofText_eq_of_same_tokens (h : (Token.tokenize table source).all = .ok ts)
    (h' : (Token.tokenize table source').all = .ok ts')
    (hsame : ts.map (fun t => (t.kind, t.text)) = ts'.map fun t => (t.kind, t.text)) :
    Sheet.mapSpans Span.forget (ofText table source) =
      Sheet.mapSpans Span.forget (ofText table source') := by
  obtain ⟨span, hending, rfl⟩ := Token.Tokenization.exists_ending_of_all h
  obtain ⟨span', hending', rfl⟩ := Token.Tokenization.exists_ending_of_all h'
  rw [List.map_append, List.map_append] at hsame
  have htokens := (List.append_inj' hsame rfl).1
  have hpair : (sameTokens span span').Pair
      (Cursor.on ⟨0, 0⟩ span (Token.tokenize table source).tokens)
      (Cursor.on ⟨0, 0⟩ span' (Token.tokenize table source').tokens) := by
    refine ⟨_, _, _, _, rfl, rfl, ?_⟩
    rw [← List.forall₂_eq_eq_eq] at htokens
    have hpairs := List.forall₂_map_right_iff.mp (List.forall₂_map_left_iff.mp htokens)
    exact hpairs.imp fun t t' ht => Token.mapSpan_forget_eq ht
  rcases (sameTokens span span').ofWindow_of_pair hpair with ⟨_, hstop, -⟩ | hread
  · exact hstop.elim
  · rw [ofText_eq_ofTokens, ofText_eq_ofTokens, ofTokens_eq_ofWindow hending,
      ofTokens_eq_ofWindow hending']
    exact hread

end Text

end Sheet

namespace BuildError

/-- The error with the spans changed that lie in the source. -/
def mapSpans (f : Span → Span) : BuildError → BuildError
  | read error => .read (error.mapSpan f)
  | eval error => .eval (error.mapSpans f)
  | file path cause => .file path cause
  | tooDeep => .tooDeep

/-- A message does not tell the place. -/
lemma message_mapSpans (f : Span → Span) (e : BuildError) : (e.mapSpans f).message = e.message := by
  cases e with
  | read error => exact error.message_mapSpan
  | eval error => exact error.message_mapSpans f
  | file path cause => rfl
  | tooDeep => rfl

end BuildError

namespace Build

open Evaluation

/-- Sheets that are the same up to spans are evaluated alike. -/
lemma ofSheet_eq_of_map_eq (setting : Setting) {sheet sheet' : Sheet}
    (h : sheet.map (Stmt.mapSpans Span.forget) = sheet'.map (Stmt.mapSpans Span.forget)) :
    (ofSheet setting sheet).mapError (BuildError.mapSpans Span.forget) =
      (ofSheet setting sheet').mapError (BuildError.mapSpans Span.forget) := by
  have halike : (runAll setting (runUpTo setting setting.maxDepth) none sheet .initial).1.forget =
      (runAll setting (runUpTo setting setting.maxDepth) none sheet' .initial).1.forget :=
    (alikeOnBodies_runUpTo setting (setting.maxDepth + 1) none _ _ h .initial .initial rfl).1
  rw [ofSheet_eq, ofSheet_eq]
  generalize runAll setting (runUpTo setting setting.maxDepth) none sheet .initial = r,
    runAll setting (runUpTo setting setting.maxDepth) none sheet' .initial = r' at halike ⊢
  rcases r with ⟨out | e | _, t⟩ <;> rcases r' with ⟨out' | e' | _, t'⟩
  case ok.ok =>
    obtain rfl : out = out' := Outcome.ok.inj halike
    rfl
  case failed.failed =>
    exact congrArg (fun e => Except.error (BuildError.eval e)) (Outcome.failed.inj halike)
  case tooDeep.tooDeep => rfl
  all_goals cases halike

/-- Errors that are the same up to spans have the same message. -/
lemma mapError_message_eq {α : Type} {r r' : Except BuildError α}
    (h : r.mapError (BuildError.mapSpans Span.forget) =
      r'.mapError (BuildError.mapSpans Span.forget)) :
    r.mapError BuildError.message = r'.mapError BuildError.message := by
  have hmessage : ∀ r : Except BuildError α,
      (r.mapError (BuildError.mapSpans Span.forget)).mapError BuildError.message =
        r.mapError BuildError.message := by
    intro r
    cases r with
    | ok a => rfl
    | error e => exact congrArg Except.error (e.message_mapSpans Span.forget)
  rw [← hmessage r, h, hmessage r']

/-- Texts whose scanning yields tokens with the same kinds and texts are read as the same sheet up
to spans, or not read because of the same error with the same message.  Their builds have the same
output, or fail with the same error, inside of the same imports and with the same message.  So
neither spans nor what stands between the tokens have any influence. -/
theorem ofText_eq_of_same_tokens (setting : Setting) (source source' : String) (ts ts' : List Token)
    (h : (Token.tokenize setting.keywords source).all = .ok ts)
    (h' : (Token.tokenize setting.keywords source').all = .ok ts')
    (hsame : ts.map (fun t => (t.kind, t.text)) = ts'.map fun t => (t.kind, t.text)) :
    Sheet.mapSpans Span.forget (Sheet.ofText setting.keywords source) =
        Sheet.mapSpans Span.forget (Sheet.ofText setting.keywords source') ∧
      (∀ e e', Sheet.ofText setting.keywords source = .error e →
        Sheet.ofText setting.keywords source' = .error e' → e.message = e'.message) ∧
      (ofText setting source).mapError (BuildError.mapSpans Span.forget) =
        (ofText setting source').mapError (BuildError.mapSpans Span.forget) ∧
      (ofText setting source).mapError BuildError.message =
        (ofText setting source').mapError BuildError.message := by
  have hread := Sheet.mapSpans_ofText_eq_of_same_tokens h h' hsame
  have hbuild : (ofText setting source).mapError (BuildError.mapSpans Span.forget) =
      (ofText setting source').mapError (BuildError.mapSpans Span.forget) := by
    unfold ofText
    generalize Sheet.ofText setting.keywords source = r,
      Sheet.ofText setting.keywords source' = r' at hread ⊢
    rcases r with e | sheet <;> rcases r' with e' | sheet'
    case error.error =>
      exact congrArg (fun e => Except.error (BuildError.read e)) (Except.error.inj hread)
    case ok.ok => exact ofSheet_eq_of_map_eq setting (Except.ok.inj hread)
    all_goals cases hread
  refine ⟨hread, ?_, hbuild, mapError_message_eq hbuild⟩
  intro e e' he he'
  rw [he, he'] at hread
  have hspan : e.mapSpan Span.forget = e'.mapSpan Span.forget := Except.error.inj hread
  calc
    e.message = (e.mapSpan Span.forget).message := e.message_mapSpan.symm
    _ = (e'.mapSpan Span.forget).message := by rw [hspan]
    _ = e'.message := e'.message_mapSpan

def tightText : String := "@import 'm';A B\x7b@include p\x7d"

/-- The same tokens with spaces, lines and comments between them. -/
def looseText : String := "// m\n@import 'm' ;\nA B /* p */ \x7b\n  @include p\n\x7d"

/-- The files to import: in the first table the file is what the texts need, in the second one it
fails. -/
def partFiles : Table String := ⟨[("m", "@mixin p\x7bx:1\x7d")]⟩

def brokenFiles : Table String := ⟨[("m", "A\x7bx:$y\x7d")]⟩

/-- The tokens stand at other places in the two texts, and still the output is the same, and so is
the message of an error in an import. -/
theorem ofText_eq_of_same_tokens_looseText :
    (Token.tokenize .builtin tightText).tokens ≠ (Token.tokenize .builtin looseText).tokens ∧
    (ofText ⟨.ofTable partFiles, .builtin, 2⟩ looseText).mapError BuildError.message =
      .ok "A B\x7bx:1.0;\x7d" ∧
    (ofText ⟨.ofTable brokenFiles, .builtin, 2⟩ looseText).mapError BuildError.message =
      .error "in `m`: undefined variable `$y`" := by
  have hending : (Token.tokenize .builtin tightText).ending = .ok ⟨27, 27⟩ := by decide +kernel
  have hending' : (Token.tokenize .builtin looseText).ending = .ok ⟨47, 47⟩ := by decide +kernel
  have h : (Token.tokenize .builtin tightText).all =
      .ok ((Token.tokenize .builtin tightText).tokens ++ [.endOfInput ⟨27, 27⟩]) := by
    rw [Token.Tokenization.all, hending]
    rfl
  have h' : (Token.tokenize .builtin looseText).all =
      .ok ((Token.tokenize .builtin looseText).tokens ++ [.endOfInput ⟨47, 47⟩]) := by
    rw [Token.Tokenization.all, hending']
    rfl
  have hsame : ((Token.tokenize .builtin tightText).tokens ++ [Token.endOfInput ⟨27, 27⟩]).map
        (fun t => (t.kind, t.text)) =
      ((Token.tokenize .builtin looseText).tokens ++ [Token.endOfInput ⟨47, 47⟩]).map
        fun t => (t.kind, t.text) := by decide +kernel
  refine ⟨by decide +kernel, ?_, ?_⟩
  · obtain ⟨-, -, -, hmessage⟩ :=
      ofText_eq_of_same_tokens ⟨.ofTable partFiles, .builtin, 2⟩ tightText looseText _ _ h h' hsame
    rw [← hmessage]
    decide +kernel
  · obtain ⟨-, -, -, hmessage⟩ :=
      ofText_eq_of_same_tokens ⟨.ofTable brokenFiles, .builtin, 2⟩ tightText looseText _ _ h h'
        hsame
    rw [← hmessage]
    decide +kernel

end Build

end StyleSheet

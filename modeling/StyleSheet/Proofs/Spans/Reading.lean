import StyleSheet.Proofs.Grammar.Trees
import StyleSheet.Proofs.Spans.Source

/-!
# Spans in what is read

The spans of a sheet are those of tokens and what covers them, and an error of reading stands at a
token, at the opening of something or where scanning stopped.  Hence a property of spans that the
tokens have, and that is kept when spans are merged, holds of all spans that reading yields.
-/

namespace StyleSheet

section Located

variable {P : Span → Prop} {T : Token → Prop} (hmerge : ∀ s t, P s → P t → P (s.merge t))
  (hzero : P ⟨0, 0⟩) (htoken : ∀ t, T t → P t.span)

include hmerge hzero htoken

/-- A span that is made of spans of tokens has every property of these that merging keeps. -/
lemma Span.Made.located {s : Span} (h : s.Made T) : P s := by
  induction h with
  | start => exact hzero
  | token ht => exact htoken _ ht
  | merge _ _ hs ht => exact hmerge _ _ hs ht

/-- The spans in an expression that is built from tokens have every such property. -/
lemma Expr.Built.located {e : Expr} (h : e.Built T) : e.Located P := by
  have hmade : ∀ s : Span, s.Made T → P s := fun _ hs => hs.located hmerge hzero htoken
  induction h with
  | negate _ hspan ih => exact ⟨ih, hmade _ hspan⟩
  | binary _ _ hspan ihleft ihright => exact ⟨ihleft, ihright, hmade _ hspan⟩
  | var ht => exact htoken _ ht
  | number ht => exact htoken _ ht
  | text ht => exact htoken _ ht
  | color ht => exact htoken _ ht
  | bool ht => exact htoken _ ht
  | selector ht => exact htoken _ ht

/-- All spans of a statement have a property if those of the tokens it is made of have it. -/
lemma Stmt.Built.located {s : Stmt} (h : s.Built T) : s.Located P := by
  have hmade : ∀ s : Span, s.Made T → P s := fun _ hs => hs.located hmerge hzero htoken
  have hexpr : ∀ e : Expr, e.Built T → e.Located P := fun _ he => he.located hmerge hzero htoken
  induction h with
  | assign htarget hvalue hspan =>
    exact .assign (hmade _ htarget) (hexpr _ hvalue) (hmade _ hspan)
  | ruleset hheader _ _ hspan hrules hchildren =>
    exact .ruleset (fun t ht => htoken t (hheader t ht)) hrules hchildren (hmade _ hspan)
  | declare hproperty hvalues hspan =>
    exact .declare (htoken _ hproperty) (fun e he => hexpr e (hvalues e he)) (hmade _ hspan)
  | mixin hparams _ hblock hspan hbody =>
    exact .mixin (fun i hi => hmade _ (hparams i hi)) hbody (hmade _ hblock) (hmade _ hspan)
  | expand hargs hspan => exact .expand (fun e he => hexpr e (hargs e he)) (hmade _ hspan)
  | importFile hspan => exact .importFile (hmade _ hspan)
  | extend htarget hspan => exact .extend (fun t ht => htoken t (htarget t ht)) (hmade _ hspan)
  | branch hcondition _ hblock _ hblocks hspan hyes hno =>
    exact .branch (hexpr _ hcondition) hyes (hmade _ hblock) hno
      (fun b hb => hmade _ (hblocks b hb)) (hmade _ hspan)
  | expr hvalue => exact .expr (hexpr _ hvalue)

end Located

namespace Sheet

/-- What holds of the spans of tokens holds of the span of an error that stands at one. -/
lemma ReadError.StandsAt.span {P : Span → Prop} {e : ReadError}
    (h : e.StandsAt (fun t => P t.span) (fun e => P e.span)) : P e.span := by
  cases e with
  | scan e => exact h
  | _ =>
    obtain ⟨t, ht, -, rfl⟩ := h
    exact ht

/-- The property holds of all spans of a sheet that a text is read as, or of the error. -/
lemma located_ofText {P : Span → Prop} (hmerge : ∀ s t, P s → P t → P (s.merge t))
    (hzero : P ⟨0, 0⟩) {table : Keyword.Table} {source : String}
    (htokens : ∀ t ∈ (Token.tokenize table source).tokens, P t.span)
    (hending : P (Token.endSpan (Token.tokenize table source).ending)) :
    (∀ sheet, ofText table source = .ok sheet → ∀ s ∈ sheet, s.Located P) ∧
      ∀ e, ofText table source = .error e → P e.span := by
  have hends : Token.EndsIn (fun t => P t.span) (fun e => P e.span)
      (Token.tokenize table source).ending := by
    cases hend : (Token.tokenize table source).ending with
    | ok span =>
      rw [hend] at hending
      exact hending
    | error e =>
      rw [hend] at hending
      exact hending
  obtain ⟨hok, herror⟩ := built_ofText htokens hends
  refine ⟨fun sheet h s hs => ?_, fun e h => (herror e h).span⟩
  exact (hok sheet h s hs).located hmerge hzero fun _ ht => ht

/-- The spans of a sheet lie in the text it is read from, and so does the span of an error. -/
theorem liesIn_ofText (table : Keyword.Table) {source : String}
    (hsize : source.utf8ByteSize ≤ Span.maxOffset) :
    (∀ sheet, ofText table source = .ok sheet → ∀ s ∈ sheet, s.Located (Span.LiesIn source)) ∧
      ∀ e, ofText table source = .error e → e.span.LiesIn source := by
  obtain ⟨htokens, hending⟩ := Token.liesIn_tokenize table hsize
  exact located_ofText (fun _ _ => Span.LiesIn.merge) Span.liesIn_zero htokens hending

end Sheet

end StyleSheet

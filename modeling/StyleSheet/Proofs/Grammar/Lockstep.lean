import StyleSheet.Proofs.Spans.Mapping
import StyleSheet.Sheet.Read

/-!
# Reading two windows in step

Reading looks at the kinds and the texts of the tokens in the window, and it passes their spans on.
So two windows that show the same tokens, apart from spans, are read in the same way.  They may
differ in what follows: one of them may have fewer tokens to come, and then its reading can stop
with an error of the scanner where the other one goes on.

A `Pairing` says which windows belong together.  It makes a walk over the grammar whose trees are
equal up to spans (`Track.Trees.upTo`), so paired windows are read as the same sheet
(`Pairing.ofWindow_of_pair`).
-/

namespace StyleSheet.Sheet

/-! ### Trees that are equal up to spans -/

namespace Track

variable {ι α β : Type} {k : Track ι} {i j : ι}

/-- Where what is seen of the items is the same on both sides, so is what is seen of a list. -/
lemma Many.map_eq {item : ι → ι → α → α → Prop} (view : α → β)
    (hitem : ∀ ⦃i j a b⦄, item i j a b → view a = view b) {as bs : List α}
    (h : Many item i j as bs) : as.map view = bs.map view := by
  induction h with
  | nil => rfl
  | cons first _ ih => rw [List.map_cons, List.map_cons, hitem first, ih]

/-- The same for items with commas between them. -/
lemma Separated.map_eq {item : ι → ι → α → α → Prop} (view : α → β)
    (hitem : ∀ ⦃i j a b⦄, item i j a b → view a = view b) {as bs : List α}
    (h : k.Separated item i j as bs) : as.map view = bs.map view := by
  induction h with
  | nil => rfl
  | last only => rw [List.map_singleton, List.map_singleton, hitem only]
  | cons first _ _ _ ih => rw [List.map_cons, List.map_cons, hitem first, ih]

/-- The same for items between parentheses. -/
lemma Parenthesized.map_eq {item : ι → ι → α → α → Prop} (view : α → β)
    (hitem : ∀ ⦃i j a b⦄, item i j a b → view a = view b) {as bs : List α}
    (h : k.Parenthesized item i j as bs) : as.map view = bs.map view := by
  cases h with
  | absent => rfl
  | present _ _ items _ _ => exact items.map_eq view hitem

/-- The same for statements, whose semicolons are no items. -/
lemma Statements.map_eq {stmt : ι → ι → Stmt → Stmt → Prop} (view : Stmt → β)
    (hstmt : ∀ ⦃i j a b⦄, stmt i j a b → view a = view b) {as bs : List Stmt}
    (h : k.Statements stmt i j as bs) : as.map view = bs.map view := by
  induction h with
  | nil => rfl
  | semicolon _ _ _ ih => exact ih
  | cons first _ ih => rw [List.map_cons, List.map_cons, hstmt first, ih]

/-- Two inputs with the same tokens, whose spans count only up to a function. -/
def upTo (f : Span → Span) : Track Unit where
  Tok _ t t' := t.mapSpan f = t'.mapSpan f
  next _ _ := ()
  Last _ span span' := f span = f span'

end Track

/-- Spans can be merged before they are changed by `f`. -/
def KeepsMerge (f : Span → Span) : Prop :=
  ∀ ⦃a a' b b' : Span⦄, f a = f a' → f b = f b' → f (a.merge b) = f (a'.merge b')

/-- Spans that count as they are can be merged. -/
lemma keepsMerge_id : KeepsMerge id := by
  rintro a _ b _ rfl rfl
  rfl

/-- Spans that do not count can be merged. -/
lemma keepsMerge_forget : KeepsMerge Span.forget := fun _ _ _ _ _ _ => rfl

section UpTo

variable {f : Span → Span} {i j : Unit}

/-- Expressions that are equal up to spans have spans that count as equal. -/
lemma spans_of_mapSpans {e e' : Expr} (h : e.mapSpans f = e'.mapSpans f) :
    f e.span = f e'.span := by
  have hspan := congrArg Expr.span h
  rwa [Expr.span_mapSpans, Expr.span_mapSpans] at hspan

/-- What a token stands for has the span of the token. -/
lemma atom?_mapSpan (t : Token) : atom? (t.mapSpan f) = (atom? t).map (Expr.mapSpans f) := by
  obtain ⟨kind, text, span⟩ := t
  cases kind with
  | number =>
    change (splitNumber? text).map _ = ((splitNumber? text).map _).map _
    rw [Option.map_map]
    rfl
  | keyword w => rfl
  | _ => rfl

/-- Tokens that are equal up to spans stand for such expressions. -/
lemma mapSpans_of_atom? {t t' : Token} {e e' : Expr} (ht : t.mapSpan f = t'.mapSpan f)
    (he : atom? t = some e) (he' : atom? t' = some e') : e.mapSpans f = e'.mapSpans f := by
  have h := congrArg atom? ht
  rw [atom?_mapSpan, atom?_mapSpan, he, he'] at h
  exact Option.some.inj h

/-- Statements that are equal up to spans make blocks that are. -/
lemma mapSpans_of_braced (hmerge : KeepsMerge f) {b b' : Block Stmt}
    (h : (Track.upTo f).Braced (fun _ _ s s' => s.mapSpans f = s'.mapSpans f) i j b b') :
    b.mapSpans f = b'.mapSpans f := by
  obtain ⟨ho, -, ⟨inside, -, -⟩, hlast⟩ := h
  rw [Block.mapSpans, Block.mapSpans, inside.map_eq _ fun _ _ _ _ h => h,
    hmerge (Token.eq_of_mapSpan_eq ho).2.2 hlast]

/-- The same for what follows a block of `@if`. -/
lemma mapSpans_of_otherwise (hmerge : KeepsMerge f) {no no' : Option (Block Stmt)}
    (h : (Track.upTo f).Otherwise (fun _ _ s s' => s.mapSpans f = s'.mapSpans f) i j no no') :
    no.map (Block.mapSpans f) = no'.map (Block.mapSpans f) := by
  cases h with
  | absent => rfl
  | block _ _ hblock => rw [Option.map_some, Option.map_some, mapSpans_of_braced hmerge hblock]
  | chained _ _ _ _ hstmt =>
    have hspan := congrArg Stmt.span hstmt
    rw [Stmt.span_mapSpans, Stmt.span_mapSpans] at hspan
    simp only [Option.map_some, Block.mapSpans, List.map_cons, List.map_nil, hspan, hstmt]

/-- The rulesets among statements are equal up to spans if the statements are. -/
lemma map_filter_of_mapSpans {b b' : Block Stmt} (h : b.mapSpans f = b'.mapSpans f)
    (q : Bool → Bool) : (b.statements.filter fun s => q s.isRuleset).map (Stmt.mapSpans f) =
      (b'.statements.filter fun s => q s.isRuleset).map (Stmt.mapSpans f) := by
  have hstatements : b.statements.map (Stmt.mapSpans f) = b'.statements.map (Stmt.mapSpans f) :=
    congrArg Block.statements h
  rw [Stmt.map_filter_isRuleset, Stmt.map_filter_isRuleset, hstatements]

/-- The names of mixins do not depend on spans. -/
lemma eq_of_one_isNamed {name name' : String} (h : (Track.upTo f).One IsNamed i j name name') :
    name = name' := by
  obtain ⟨ht, ⟨-, rfl⟩, ⟨-, rfl⟩⟩ := h
  exact (Token.eq_of_mapSpan_eq ht).2.1

/-- Trees that are equal up to spans. -/
def Track.Trees.upTo (hmerge : KeepsMerge f) : (Track.upTo f).Trees where
  Operand _ _ e e' := e.mapSpans f = e'.mapSpans f
  Value _ _ e e' := e.mapSpans f = e'.mapSpans f
  Statement _ _ s s' := s.mapSpans f = s'.mapSpans f
  atom ht he he' := mapSpans_of_atom? ht he he'
  negate ht _ he := by
    rw [Expr.mapSpans, Expr.mapSpans, he,
      hmerge (Token.eq_of_mapSpan_eq ht).2.2 (spans_of_mapSpans he)]
  enclosed _ _ he _ _ := he
  operand he := he
  binary he _ _ hr := by
    rw [Expr.mapSpans, Expr.mapSpans, he, hr,
      hmerge (spans_of_mapSpans he) (spans_of_mapSpans hr)]
  assign hname _ _ _ he _ hlast _ := by
    obtain ⟨-, htext, hspan⟩ := Token.eq_of_mapSpan_eq hname
    simp only [Stmt.mapSpans, Ident.mapSpan, htext, hspan, he, hmerge hspan hlast]
  declare hproperty _ _ _ he hes _ hlast _ := by
    have hspan := (Token.eq_of_mapSpan_eq hproperty).2.2
    rw [Stmt.mapSpans, Stmt.mapSpans, List.map_cons, List.map_cons, hproperty, he,
      hes.map_eq _ fun _ _ _ _ h => h, hmerge hspan hlast]
  importFile hstart _ hpath _ _ := by
    obtain ⟨-, htext, hspan⟩ := Token.eq_of_mapSpan_eq hpath
    rw [Stmt.mapSpans, Stmt.mapSpans, htext, hmerge (Token.eq_of_mapSpan_eq hstart).2.2 hspan]
  mixin hstart _ hname hparams hbody := by
    have hblock := mapSpans_of_braced hmerge hbody
    have hspan := congrArg Block.span hblock
    have hparams' := hparams.map_eq (Ident.mapSpan f) ?_
    · rw [Stmt.mapSpans_mixin, Stmt.mapSpans_mixin, eq_of_one_isNamed hname, hparams', hblock,
        hmerge (Token.eq_of_mapSpan_eq hstart).2.2 hspan]
    · rintro i j a b ⟨ht, ⟨-, rfl⟩, ⟨-, rfl⟩⟩
      obtain ⟨-, htext, hspan⟩ := Token.eq_of_mapSpan_eq ht
      rw [Ident.mapSpan, Ident.mapSpan, htext, hspan]
  expand hstart _ hname hargs hlast _ := by
    rw [Stmt.mapSpans, Stmt.mapSpans, eq_of_one_isNamed hname, hargs.map_eq _ fun _ _ _ _ h => h,
      hmerge (Token.eq_of_mapSpan_eq hstart).2.2 hlast]
  extend hstart _ htarget _ hlast _ := by
    rw [Stmt.mapSpans, Stmt.mapSpans, htarget.map_eq _ ?_,
      hmerge (Token.eq_of_mapSpan_eq hstart).2.2 hlast]
    rintro i j a b ⟨ht, ⟨-, rfl⟩, ⟨-, rfl⟩⟩
    exact ht
  branch hstart _ he hyes hno hlast := by
    rw [Stmt.mapSpans_branch, Stmt.mapSpans_branch, he, mapSpans_of_braced hmerge hyes,
      mapSpans_of_otherwise hmerge hno, hmerge (Token.eq_of_mapSpan_eq hstart).2.2 hlast]
  ruleset hfirst _ hheader hbody hlast := by
    have hblock := mapSpans_of_braced hmerge hbody
    have hrules := map_filter_of_mapSpans hblock (!·)
    have hchildren := map_filter_of_mapSpans hblock (·)
    have hheader' := hheader.map_eq (Token.mapSpan f) ?_
    · rw [Stmt.mapSpans_ruleset, Stmt.mapSpans_ruleset, List.map_cons, List.map_cons, hfirst,
        hheader', hrules, hchildren, hmerge (Token.eq_of_mapSpan_eq hfirst).2.2 hlast]
    · rintro i j a b ⟨ht, ⟨-, rfl⟩, ⟨-, rfl⟩⟩
      exact ht
  expr _ _ he _ := by rw [Stmt.mapSpans, Stmt.mapSpans, he]

end UpTo

/-! ### Pairs of windows -/

/-- Pairs of windows that are read in step.  Spans count only up to a function, and the first window
of a pair may stop with some errors of the scanner. -/
structure Pairing (σ τ : Type) [Window σ] [Window τ] where
  Pair : σ → τ → Prop
  spans : Span → Span
  Stop : Token.ScanError → Prop
  merge : KeepsMerge spans
  before : ∀ {c d}, Pair c d → spans (Window.before c) = spans (Window.before d)
  current : ∀ {c d}, Pair c d →
    (Window.current c).mapSpan spans = (Window.current d).mapSpan spans
  ahead : ∀ {c d}, Pair c d → (Window.ahead c).kind = (Window.ahead d).kind
  /-- The second window has as many tokens to come. -/
  size_le : ∀ {c d}, Pair c d → Window.size c ≤ Window.size d
  /-- Both windows go on or both meet the same error, unless the first one stops. -/
  advance : ∀ {c d}, Pair c d → (Window.current c).kind ≠ .eof →
    (∃ e, Window.advance c = .error e ∧ Stop e) ∨
    (∃ e, Window.advance c = .error e ∧ Window.advance d = .error e) ∨
    ∃ c' d', Window.advance c = .ok c' ∧ Window.advance d = .ok d' ∧ Pair c' d'

namespace Pairing

variable {σ τ : Type} [Window σ] [Window τ] (p : Pairing σ τ) {c : σ} {d : τ}

/-- Paired windows walk along their tokens. -/
def walk : Walk σ τ Unit where
  toTrack := .upTo p.spans
  At _ := p.Pair
  Fail _ e e' := e.mapSpan p.spans = e'.mapSpan p.spans
  Stop := p.Stop
  kind_eq ht := (Token.eq_of_mapSpan_eq ht).1.symm
  text_eq ht := (Token.eq_of_mapSpan_eq ht).2.1.symm
  current := p.current
  ahead h := (p.ahead h).symm
  last := p.before
  size_le := p.size_le
  advance := by
    intro _ c d hpair hne _
    rcases p.advance hpair hne with hstop | ⟨e, hc, hd⟩ | hnext
    · exact .inl hstop
    · exact .inr (.inl ⟨e, e, hc, hd, rfl⟩)
    · exact .inr (.inr hnext)
  unexpected ht _ := by
    obtain ⟨hkind, -, hspan⟩ := Token.eq_of_mapSpan_eq ht
    rw [ReadError.mapSpan, ReadError.mapSpan, hkind, hspan]
  expectedExpression ht := by
    obtain ⟨hkind, -, hspan⟩ := Token.eq_of_mapSpan_eq ht
    rw [ReadError.mapSpan, ReadError.mapSpan, hkind, hspan]
  invalid ht _ _ := by
    rw [ReadError.mapSpan, ReadError.mapSpan, (Token.eq_of_mapSpan_eq ht).2.2]
  unclosed hopened _ _ := by
    obtain ⟨ho, -, -⟩ := hopened
    rw [ReadError.mapSpan, ReadError.mapSpan, (Token.eq_of_mapSpan_eq ho).2.2]

/-- An expression is read in step with one of a paired window. -/
lemma agrees_expression (h : p.Pair c d) :
    (expression c).Agrees p.walk False (Window.size c) ()
      (fun _ e e' => e.mapSpans p.spans = e'.mapSpans p.spans) (expression d) :=
  have hat : p.walk.At () c d := h
  Sheet.agrees_expression (Track.Trees.upTo p.merge) hat

/-- All statements of a window are read in step with those of a paired one. -/
lemma agrees_statements (h : p.Pair c d) :
    (statementsUpTo (Window.size c + 1) none c).Agrees p.walk False (Window.size c + 1) ()
      (fun _ as bs => as.map (Stmt.mapSpans p.spans) = bs.map (Stmt.mapSpans p.spans))
      (statementsUpTo (Window.size d + 1) none d) := by
  have hat : p.walk.At () c d := h
  have hle : Window.size c + 1 ≤ Window.size d + 1 := Nat.succ_le_succ (p.size_le h)
  refine (agrees_statementsUpTo (Track.Trees.upTo p.merge) hle hat).mono
    (Nat.not_succ_le_self _) (Nat.le_refl _) fun hgood => ?_
  exact hgood.1.map_eq _ fun _ _ _ _ h => h

/-- Paired windows are read as the same sheet up to spans, or both with the same error, unless the
first one stops with the scanner. -/
lemma ofWindow_of_pair (h : p.Pair c d) :
    (∃ e, p.Stop e ∧ ofWindow c = .error (.scan e)) ∨
      Sheet.mapSpans p.spans (ofWindow c) = Sheet.mapSpans p.spans (ofWindow d) := by
  have hagrees := p.agrees_statements h
  generalize hr : statementsUpTo (Window.size c + 1) none c = r at hagrees
  generalize hr' : statementsUpTo (Window.size d + 1) none d = r' at hagrees
  cases hagrees with
  | ok _ _ _ hgood =>
    rw [ofWindow_eq_ok.mpr ⟨_, hr⟩, ofWindow_eq_ok.mpr ⟨_, hr'⟩]
    exact .inr (congrArg Except.ok hgood)
  | failed _ hfail =>
    rw [ofWindow_eq_error.mpr ⟨_, hr⟩, ofWindow_eq_error.mpr ⟨_, hr'⟩]
    exact .inr (congrArg Except.error hfail)
  | stopped hstop => exact .inl ⟨_, hstop, ofWindow_eq_error.mpr ⟨_, hr⟩⟩
  | starved hhungry => exact hhungry.elim

end Pairing

end StyleSheet.Sheet

import StyleSheet.Proofs.Grammar.Simulation
import StyleSheet.Proofs.Tree

/-!
# What sheets are built from

Reading puts a sheet together from tokens.  A variable in an expression and a token in a header are
tokens of the text, all spans are those of tokens or cover such spans, and an error stands at a
token, at the token that opens something, or where scanning stopped.  This is said here once and for
all, with a property of tokens and one of errors of scanning as parameters (`Stmt.Built`,
`ReadError.StandsAt`), and other properties of what is read are derived from it.

The walk over the grammar meets only tokens with the property (`tokenSurvey`), and each rule of the
grammar builds its tree from them (`builtTrees`).
-/

namespace StyleSheet

/-! ### Parts and the tokens they are made of -/

/-- The span of a token with the property, or one that covers such spans.  The empty span at the
start counts as one, since it stands for the token before the first. -/
inductive Span.Made (T : Token → Prop) : Span → Prop
  | start : Made T ⟨0, 0⟩
  | token {t : Token} (ht : T t) : Made T t.span
  | merge {s t : Span} (hs : Made T s) (ht : Made T t) : Made T (s.merge t)

/-- The expression is made of tokens with the property. -/
inductive Expr.Built (T : Token → Prop) : Expr → Prop
  | var {t : Token} (ht : T t) (hkind : t.kind = .variableName) : Built T (.var t.text t.span)
  | number {t : Token} {x : Float} {unit : Option String} (ht : T t) :
    Built T (.number x unit t.span)
  | text {t : Token} (ht : T t) : Built T (.text t.text t.span)
  | color {t : Token} (ht : T t) : Built T (.color t.text t.span)
  | bool {t : Token} {b : Bool} (ht : T t) : Built T (.bool b t.span)
  | negate {operand : Expr} {span : Span} (hoperand : Built T operand) (hspan : span.Made T) :
    Built T (.negate operand span)
  | binary {op : Operator} {left right : Expr} {span : Span} (hleft : Built T left)
    (hright : Built T right) (hspan : span.Made T) : Built T (.binary op left right span)
  | selector {t : Token} (ht : T t) : Built T (.selector t)

/-- The span of an expression is made of spans of tokens. -/
lemma Expr.Built.span {T : Token → Prop} {e : Expr} (h : e.Built T) : e.span.Made T := by
  cases h with
  | negate _ hspan => exact hspan
  | binary _ _ hspan => exact hspan
  | var ht => exact .token ht
  | number ht => exact .token ht
  | text ht => exact .token ht
  | color ht => exact .token ht
  | bool ht => exact .token ht
  | selector ht => exact .token ht

/-- The statement is made of tokens with the property. -/
inductive Stmt.Built (T : Token → Prop) : Stmt → Prop
  | assign {target : Ident} {value : Expr} {isGlobal isDefault : Bool} {span : Span}
    (htarget : target.span.Made T) (hvalue : value.Built T) (hspan : span.Made T) :
    Built T (.assign target value isGlobal isDefault span)
  | ruleset {header : List Token} {rules children : List Stmt} {span : Span}
    (hheader : ∀ t ∈ header, T t) (hrules : ∀ s ∈ rules, Built T s)
    (hchildren : ∀ s ∈ children, Built T s) (hspan : span.Made T) :
    Built T (.ruleset header rules children span)
  | declare {property : Token} {values : List Expr} {important : Bool} {span : Span}
    (hproperty : T property) (hvalues : ∀ e ∈ values, e.Built T) (hspan : span.Made T) :
    Built T (.declare property values important span)
  | mixin {name : String} {params : List Ident} {body : Block Stmt} {span : Span}
    (hparams : ∀ i ∈ params, i.span.Made T) (hbody : ∀ s ∈ body.statements, Built T s)
    (hblock : body.span.Made T) (hspan : span.Made T) : Built T (.mixin name params body span)
  | expand {name : String} {args : List Expr} {span : Span} (hargs : ∀ e ∈ args, e.Built T)
    (hspan : span.Made T) : Built T (.expand name args span)
  | importFile {path : String} {span : Span} (hspan : span.Made T) :
    Built T (.importFile path span)
  | extend {target : List Token} {span : Span} (htarget : ∀ t ∈ target, T t)
    (hspan : span.Made T) : Built T (.extend target span)
  | branch {condition : Expr} {yes : Block Stmt} {no : Option (Block Stmt)} {span : Span}
    (hcondition : condition.Built T) (hyes : ∀ s ∈ yes.statements, Built T s)
    (hblock : yes.span.Made T) (hno : ∀ b ∈ no, ∀ s ∈ b.statements, Built T s)
    (hblocks : ∀ b ∈ no, b.span.Made T) (hspan : span.Made T) :
    Built T (.branch condition yes no span)
  | expr {value : Expr} (hvalue : value.Built T) : Built T (.expr value)

/-- The span of a statement is made of spans of tokens. -/
lemma Stmt.Built.span {T : Token → Prop} {s : Stmt} (h : s.Built T) : s.span.Made T := by
  cases h with
  | expr hvalue => exact hvalue.span
  | _ => assumption

/-- The tokens end at a token with the property, or with an error that has its own. -/
def Token.EndsIn (T : Token → Prop) (X : ScanError → Prop) : Except ScanError Span → Prop
  | .ok span => T (.endOfInput span)
  | .error e => X e

namespace Sheet

/-- A token with the property opens something at the span. -/
def Delimiter.OpenedAt (T : Token → Prop) (d : Delimiter) (span : Span) : Prop :=
  ∃ t, T t ∧ t.kind = d.opener ∧ t.span = span

/-- The error stands at a token with the property, at one that opens what is not closed, or it is an
error of scanning that has its own property. -/
def ReadError.StandsAt (T : Token → Prop) (X : Token.ScanError → Prop) : ReadError → Prop
  | scan e => X e
  | unexpected _ kind span | expectedExpression kind span =>
    ∃ t, T t ∧ t.kind = kind ∧ t.span = span
  | unclosed d span => d.OpenedAt T span

/-- All tokens in the window have the property. -/
structure Cursor.Shows (T : Token → Prop) (X : Token.ScanError → Prop) (s : Cursor) : Prop where
  before : s.before.Made T
  current : T s.current
  ahead : T s.ahead
  later : ∀ t ∈ s.later, T t
  ending : Token.EndsIn T X s.ending

section Grammar

variable {T : Token → Prop} {X : Token.ScanError → Prop}

/-- A window moves on to tokens that have the property too. -/
lemma Cursor.Shows.advance {c d : Cursor} (h : c.Shows T X) (hd : c.advance = .ok d) :
    d.Shows T X := by
  obtain ⟨before, current, ahead, later, ending⟩ := c
  rcases later with _ | ⟨t, later⟩
  · rcases ending with e | span
    · cases hd
    · cases hd
      exact ⟨.token h.current, h.ahead, h.ending, fun _ ht => absurd ht List.not_mem_nil, h.ending⟩
  · cases hd
    exact ⟨.token h.current, h.ahead, h.later t List.mem_cons_self,
      fun u hu => h.later u (List.mem_cons_of_mem t hu), h.ending⟩

/-- A window that does not move on has met the error that the tokens end with. -/
lemma Cursor.Shows.of_advance_error {c : Cursor} {e : Token.ScanError} (h : c.Shows T X)
    (he : c.advance = .error e) : X e := by
  obtain ⟨before, current, ahead, later, ending⟩ := c
  rcases later with _ | ⟨t, later⟩
  · rcases ending with e' | span
    · cases he
      exact h.ending
    · cases he
  · cases he

/-- A window on tokens with the property, wherever it stands. -/
def tokenSurvey (T : Token → Prop) (X : Token.ScanError → Prop) : Survey Cursor Unit where
  Tok _ := T
  next _ _ := ()
  Last _ := Span.Made T
  At _ := Cursor.Shows T X
  Fail _ := ReadError.StandsAt T X
  current h := h.current
  last h := h.before
  advance h _ _ hd := h.advance hd
  scan h _ he := h.of_advance_error he
  unexpected {_ t _} ht _ := ⟨t, ht, rfl, rfl⟩
  expectedExpression {_ t} ht := ⟨t, ht, rfl, rfl⟩
  invalid {_ t} ht hk _ := ⟨t, ht, hk, rfl⟩
  unclosed := by
    intro δ base i span t hopened _ _
    obtain ⟨o, ho, hopen, hspan, -⟩ := Survey.exists_of_opened hopened
    exact ⟨o, ho, hopen, hspan⟩

/-- The track of windows on tokens with the property. -/
abbrev tokenTrack (T : Token → Prop) (X : Token.ScanError → Prop) : Track Unit :=
  (tokenSurvey T X).walk.toTrack

/-! ### Parts of the grammar -/

section Parts

variable {ι α β : Type} {k : Track ι} (P : α → Prop) {i j : ι}

/-- What holds of each item holds of all items of a list. -/
lemma Track.Many.forall_mem {item : ι → ι → α → β → Prop} (hitem : ∀ ⦃i j a b⦄, item i j a b → P a)
    {as : List α} {bs : List β} (h : Many item i j as bs) : ∀ a ∈ as, P a := by
  induction h with
  | nil => exact fun a ha => absurd ha List.not_mem_nil
  | cons first _ ih => exact List.forall_mem_cons.mpr ⟨hitem first, ih⟩

/-- What holds of each item holds of all that are separated by commas. -/
lemma Track.Separated.forall_mem {item : ι → ι → α → β → Prop}
    (hitem : ∀ ⦃i j a b⦄, item i j a b → P a) {as : List α} {bs : List β}
    (h : k.Separated item i j as bs) : ∀ a ∈ as, P a := by
  induction h with
  | nil => exact fun a ha => absurd ha List.not_mem_nil
  | last only => exact List.forall_mem_singleton.mpr (hitem only)
  | cons first _ _ _ ih => exact List.forall_mem_cons.mpr ⟨hitem first, ih⟩

/-- What holds of each item holds of all between parentheses. -/
lemma Track.Parenthesized.forall_mem {item : ι → ι → α → β → Prop}
    (hitem : ∀ ⦃i j a b⦄, item i j a b → P a) {as : List α} {bs : List β}
    (h : k.Parenthesized item i j as bs) : ∀ a ∈ as, P a := by
  cases h with
  | absent => exact fun a ha => absurd ha List.not_mem_nil
  | present _ _ items _ _ => exact items.forall_mem P hitem

/-- What holds of each statement holds of all. -/
lemma Track.Statements.forall_mem {stmt : ι → ι → Stmt → Stmt → Prop} (P : Stmt → Prop)
    (hstmt : ∀ ⦃i j a b⦄, stmt i j a b → P a) {as bs : List Stmt}
    (h : k.Statements stmt i j as bs) : ∀ a ∈ as, P a := by
  induction h with
  | nil => exact fun a ha => absurd ha List.not_mem_nil
  | semicolon _ _ _ ih => exact ih
  | cons first _ ih => exact List.forall_mem_cons.mpr ⟨hstmt first, ih⟩

end Parts

/-! ### Trees -/

variable {i j : Unit}

/-- A token that is an expression by itself has the property. -/
lemma built_of_atom? {t : Token} {e : Expr} (ht : T t) (he : atom? t = some e) : e.Built T := by
  obtain ⟨kind, text, span⟩ := t
  cases kind with
  | variableName =>
    cases he
    exact .var ht rfl
  | number =>
    obtain ⟨n, -, rfl⟩ := Option.map_eq_some_iff.mp he
    exact .number ht
  | string =>
    cases he
    exact .text ht
  | color =>
    cases he
    exact .color ht
  | litTrue =>
    cases he
    exact .bool ht
  | litFalse =>
    cases he
    exact .bool ht
  | _ =>
    cases he <;> exact .selector ht

/-- The statements of a block are made of tokens with the property, and so is its span. -/
lemma built_of_braced {b b' : Block Stmt}
    (h : (tokenTrack T X).Braced (fun _ _ s _ => s.Built T) i j b b') :
    (∀ s ∈ b.statements, s.Built T) ∧ b.span.Made T := by
  obtain ⟨ho, -, ⟨inside, -, -⟩, hlast⟩ := h
  exact ⟨inside.forall_mem (Stmt.Built T) fun _ _ _ _ h => h, .merge (.token ho.2) hlast.2⟩

/-- So is the block that stands for what follows `@else`. -/
lemma built_of_otherwise {no no' : Option (Block Stmt)}
    (h : (tokenTrack T X).Otherwise (fun _ _ s _ => s.Built T) i j no no') :
    ∀ b ∈ no, (∀ s ∈ b.statements, s.Built T) ∧ b.span.Made T := by
  cases h with
  | absent => exact fun b hb => absurd hb (Option.not_mem_none b)
  | block _ _ hblock =>
    rintro _ ⟨⟩
    exact built_of_braced hblock
  | chained _ _ _ _ hstmt =>
    rintro _ ⟨⟩
    exact ⟨List.forall_mem_singleton.mpr hstmt, hstmt.span⟩

/-- Trees that are made of tokens with the property. -/
def builtTrees (T : Token → Prop) (X : Token.ScanError → Prop) : (tokenTrack T X).Trees where
  Operand _ _ e _ := e.Built T
  Value _ _ e _ := e.Built T
  Statement _ _ s _ := s.Built T
  atom ht he _ := built_of_atom? ht.2 he
  negate ht _ he := .negate he (.merge (.token ht.2) he.span)
  enclosed _ _ he _ _ := he
  operand he := he
  binary he _ _ hr := .binary he hr (.merge he.span hr.span)
  assign hname _ _ _ he _ hlast _ :=
    .assign (.token hname.2) he (.merge (.token hname.2) hlast.2)
  declare hproperty _ _ _ he hes _ hlast _ := by
    have hvalues := hes.forall_mem (Expr.Built T) fun _ _ _ _ h => h
    exact .declare hproperty.2 (List.forall_mem_cons.mpr ⟨he, hvalues⟩)
      (.merge (.token hproperty.2) hlast.2)
  importFile hstart _ hpath _ _ := .importFile (.merge (.token hstart.2) (.token hpath.2))
  mixin hstart _ _ hparams hbody := by
    obtain ⟨hstatements, hspan⟩ := built_of_braced hbody
    refine .mixin (hparams.forall_mem _ ?_) hstatements hspan (.merge (.token hstart.2) hspan)
    rintro i j a b ⟨ht, ⟨-, rfl⟩, -⟩
    exact .token ht.2
  expand hstart _ _ hargs hlast _ :=
    .expand (hargs.forall_mem (Expr.Built T) fun _ _ _ _ h => h) (.merge (.token hstart.2) hlast.2)
  extend hstart _ htarget _ hlast _ := by
    refine .extend (htarget.forall_mem _ ?_) (.merge (.token hstart.2) hlast.2)
    rintro i j a b ⟨ht, ⟨-, rfl⟩, -⟩
    exact ht.2
  branch hstart _ he hyes hno hlast := by
    obtain ⟨hstatements, hspan⟩ := built_of_braced hyes
    have hblocks := built_of_otherwise hno
    exact .branch he hstatements hspan (fun b hb => (hblocks b hb).1) (fun b hb => (hblocks b hb).2)
      (.merge (.token hstart.2) hlast.2)
  ruleset hfirst _ hheader hbody hlast := by
    obtain ⟨hstatements, -⟩ := built_of_braced hbody
    refine .ruleset (List.forall_mem_cons.mpr ⟨hfirst.2, hheader.forall_mem _ ?_⟩)
      (fun s hs => hstatements s (List.mem_filter.mp hs).1)
      (fun s hs => hstatements s (List.mem_filter.mp hs).1) (.merge (.token hfirst.2) hlast.2)
    rintro i j a b ⟨ht, ⟨-, rfl⟩, -⟩
    exact ht.2
  expr _ _ he _ := .expr he

/-- A sheet is made of the tokens of its window, and an error stands at one of them. -/
lemma built_ofWindow {c : Cursor} (hc : c.Shows T X) :
    (∀ sheet, ofWindow c = .ok sheet → ∀ s ∈ sheet, s.Built T) ∧
      ∀ e, ofWindow c = .error e → e.StandsAt T X := by
  have hat : (tokenSurvey T X).At () c := hc
  have hread := (tokenSurvey T X).ends_statementsUpTo (builtTrees T X) (Window.size c + 1) hat
  constructor
  · intro sheet h
    obtain ⟨t, ht⟩ := ofWindow_eq_ok.mp h
    rw [ht] at hread
    cases hread with
    | ok _ _ _ hgood =>
      obtain ⟨⟨bs, hstatements⟩, -⟩ := hgood
      exact hstatements.forall_mem (Stmt.Built T) fun _ _ _ _ h => h
  · intro e h
    obtain ⟨t, ht⟩ := ofWindow_eq_error.mp h
    rw [ht] at hread
    cases hread with
    | failed _ hfail => exact hfail

/-- The first window shows tokens, or scanning has failed before. -/
lemma shows_cursor_ofTokens {ts : Token.Tokenization} (htokens : ∀ t ∈ ts.tokens, T t)
    (hending : Token.EndsIn T X ts.ending) :
    (∀ c, Cursor.ofTokens ts = .ok c → c.Shows T X) ∧
      ∀ e, Cursor.ofTokens ts = .error e → X e := by
  obtain ⟨tokens, ending⟩ := ts
  have hnil : ∀ t ∈ ([] : List Token), T t := fun t ht => absurd ht List.not_mem_nil
  rcases tokens with _ | ⟨a, _ | ⟨b, later⟩⟩
  · rcases ending with e | span
    · constructor <;> rintro _ ⟨⟩
      exact hending
    · constructor <;> rintro _ ⟨⟩
      exact ⟨.start, hending, hending, hnil, hending⟩
  · have ha := htokens a List.mem_cons_self
    rcases ending with e | span
    · constructor <;> rintro _ ⟨⟩
      exact hending
    · constructor <;> rintro _ ⟨⟩
      exact ⟨.start, ha, hending, hnil, hending⟩
  · constructor <;> rintro _ ⟨⟩
    have hb := htokens b (List.mem_cons_of_mem a List.mem_cons_self)
    have hlater : ∀ t ∈ later, T t := fun t ht =>
      htokens t (List.mem_cons_of_mem a (List.mem_cons_of_mem b ht))
    exact ⟨.start, htokens a List.mem_cons_self, hb, hlater, hending⟩

/-- A sheet is made of the tokens it is read from, and an error stands at one of them. -/
lemma built_ofTokens {ts : Token.Tokenization} (htokens : ∀ t ∈ ts.tokens, T t)
    (hending : Token.EndsIn T X ts.ending) :
    (∀ sheet, ofTokens ts = .ok sheet → ∀ s ∈ sheet, s.Built T) ∧
      ∀ e, ofTokens ts = .error e → e.StandsAt T X := by
  obtain ⟨hok, herror⟩ := shows_cursor_ofTokens htokens hending
  rw [ofTokens]
  cases hcursor : Cursor.ofTokens ts with
  | ok c => exact built_ofWindow (hok c hcursor)
  | error e =>
    constructor <;> rintro _ ⟨⟩
    exact herror e hcursor

/-- A sheet is made of the tokens of its text, and an error stands at one of them. -/
lemma built_ofText {table : Keyword.Table} {source : String}
    (htokens : ∀ t ∈ (Token.tokenize table source).tokens, T t)
    (hending : Token.EndsIn T X (Token.tokenize table source).ending) :
    (∀ sheet, ofText table source = .ok sheet → ∀ s ∈ sheet, s.Built T) ∧
      ∀ e, ofText table source = .error e → e.StandsAt T X := by
  rw [ofText_eq_ofTokens]
  exact built_ofTokens htokens hending

end Grammar

end Sheet

end StyleSheet

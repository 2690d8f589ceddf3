import StyleSheet.Proofs.Tree
import StyleSheet.Sheet.ReadError

/-!
# Trees with other spans

A function on spans acts on everything that carries them: tokens, trees and errors.  Two trees are
the same up to spans if they become equal once all spans are replaced by one and the same
(`Span.forget`), and the identity leaves a tree as it is (`Stmt.mapSpans_id`).
-/

namespace StyleSheet

variable (f : Span → Span)

/-- Replaces every span by the same one. -/
def Span.forget (_ : Span) : Span := .point 0

def Token.mapSpan (t : Token) : Token := { t with span := f t.span }

def Ident.mapSpan (i : Ident) : Ident := { i with span := f i.span }

/-- The expression with all its spans changed. -/
def Expr.mapSpans : Expr → Expr
  | var name span => .var name (f span)
  | number magnitude unit span => .number magnitude unit (f span)
  | text s span => .text s (f span)
  | color s span => .color s (f span)
  | bool value span => .bool value (f span)
  | negate operand span => .negate operand.mapSpans (f span)
  | binary op left right span => .binary op left.mapSpans right.mapSpans (f span)
  | selector token => .selector (token.mapSpan f)

mutual

/-- The statement with all its spans changed. -/
def Stmt.mapSpans : Stmt → Stmt
  | .assign target value isGlobal isDefault span =>
    .assign (target.mapSpan f) (value.mapSpans f) isGlobal isDefault (f span)
  | .ruleset header rules children span =>
    .ruleset (header.map (·.mapSpan f)) (Stmt.mapAllSpans rules) (Stmt.mapAllSpans children)
      (f span)
  | .declare property values important span =>
    .declare (property.mapSpan f) (values.map (·.mapSpans f)) important (f span)
  | .mixin name params ⟨body, around⟩ span =>
    .mixin name (params.map (·.mapSpan f)) ⟨Stmt.mapAllSpans body, f around⟩ (f span)
  | .expand name args span => .expand name (args.map (·.mapSpans f)) (f span)
  | .importFile path span => .importFile path (f span)
  | .extend target span => .extend (target.map (·.mapSpan f)) (f span)
  | .branch condition ⟨yes, around⟩ no span =>
    .branch (condition.mapSpans f) ⟨Stmt.mapAllSpans yes, f around⟩
      (match no with
        | some ⟨statements, around⟩ => some ⟨Stmt.mapAllSpans statements, f around⟩
        | none => none)
      (f span)
  | .expr value => .expr (value.mapSpans f)

/-- Several statements with all their spans changed. -/
def Stmt.mapAllSpans : List Stmt → List Stmt
  | [] => []
  | s :: rest => s.mapSpans :: Stmt.mapAllSpans rest

end

def Block.mapSpans (b : Block Stmt) : Block Stmt := ⟨b.statements.map (Stmt.mapSpans f), f b.span⟩

variable {f} {g : Span → Span}

/-- Tokens that are the same up to spans have the same kind, and the same text. -/
lemma Token.eq_of_mapSpan_eq {t u : Token} (h : t.mapSpan f = u.mapSpan f) :
    t.kind = u.kind ∧ t.text = u.text ∧ f t.span = f u.span := by
  unfold mapSpan at h
  injection h with hkind htext hspan
  exact ⟨hkind, htext, hspan⟩

/-- The span of a mapped expression is the mapped span. -/
lemma Expr.span_mapSpans (e : Expr) : (e.mapSpans f).span = f e.span := by cases e <;> rfl

namespace Stmt

/-- The span of a mapped statement is the mapped span. -/
lemma span_mapSpans (s : Stmt) : (s.mapSpans f).span = f s.span := by
  cases s with
  | expr value => exact value.span_mapSpans
  | _ => rfl

/-- A mapped statement is a ruleset exactly if the statement is. -/
lemma isRuleset_mapSpans (s : Stmt) : (s.mapSpans f).isRuleset = s.isRuleset := by cases s <;> rfl

/-- The rulesets among statements do not depend on spans. -/
lemma map_filter_isRuleset (q : Bool → Bool) (statements : List Stmt) :
    (statements.filter fun s => q s.isRuleset).map (mapSpans f) =
      (statements.map (mapSpans f)).filter fun s => q s.isRuleset := by
  rw [List.filter_map]
  simp only [Function.comp_def, isRuleset_mapSpans]

/-- Mapping the spans of a list is mapping those of its members. -/
lemma mapAllSpans_eq_map (statements : List Stmt) :
    mapAllSpans f statements = statements.map (mapSpans f) := by
  induction statements with
  | nil => rfl
  | cons s rest ih => rw [mapAllSpans, ih, List.map_cons]

/-- Mapping a ruleset maps its selector and all statements in it. -/
lemma mapSpans_ruleset (header : List Token) (rules children : List Stmt) (span : Span) :
    (ruleset header rules children span).mapSpans f = .ruleset (header.map (Token.mapSpan f))
      (rules.map (mapSpans f)) (children.map (mapSpans f)) (f span) := by
  rw [mapSpans, mapAllSpans_eq_map, mapAllSpans_eq_map]

/-- Mapping a mixin maps its parameters and its body. -/
lemma mapSpans_mixin (name : String) (params : List Ident) (body : Block Stmt) (span : Span) :
    (mixin name params body span).mapSpans f =
      .mixin name (params.map (Ident.mapSpan f)) (body.mapSpans f) (f span) := by
  obtain ⟨statements, around⟩ := body
  rw [mapSpans, mapAllSpans_eq_map]
  rfl

/-- Mapping a condition maps all its branches. -/
lemma mapSpans_branch (condition : Expr) (yes : Block Stmt) (no : Option (Block Stmt))
    (span : Span) :
    (branch condition yes no span).mapSpans f =
      .branch (condition.mapSpans f) (yes.mapSpans f) (no.map (Block.mapSpans f)) (f span) := by
  obtain ⟨statements, around⟩ := yes
  rcases no with _ | ⟨others, around'⟩
  · rw [mapSpans, mapAllSpans_eq_map]
    rfl
  · rw [mapSpans, mapAllSpans_eq_map, mapAllSpans_eq_map]
    rfl

end Stmt

/-! ### The identity -/

/-- Mapping all spans to themselves does not change an expression. -/
lemma Expr.mapSpans_id (e : Expr) : e.mapSpans id = e := by
  induction e with
  | negate operand span ih => rw [mapSpans, ih, id]
  | binary op left right span ihleft ihright => rw [mapSpans, ihleft, ihright, id]
  | _ => rfl

/-- The statements of a body stay the same if each of them does. -/
lemma Stmt.map_mapSpans_id {statements : List Stmt} (h : ∀ s ∈ statements, s.mapSpans id = s) :
    statements.map (mapSpans id) = statements :=
  (List.map_congr_left h).trans (List.map_id statements)

/-- Mapping all spans to themselves does not change a block if it does not change its statements. -/
lemma Block.mapSpans_id {b : Block Stmt} (h : ∀ s ∈ b.statements, s.mapSpans id = s) :
    b.mapSpans id = b := by
  rw [mapSpans, Stmt.map_mapSpans_id h, id]

/-- Mapping all spans to themselves does not change a statement. -/
lemma Stmt.mapSpans_id (s : Stmt) : s.mapSpans id = s := by
  have hexprs : ∀ es : List Expr, es.map (Expr.mapSpans id) = es := fun es =>
    (List.map_congr_left fun e _ => e.mapSpans_id).trans (List.map_id es)
  have htokens : ∀ ts : List Token, ts.map (Token.mapSpan id) = ts := List.map_id
  induction s using Stmt.induct with
  | assign target value isGlobal isDefault span =>
    rw [mapSpans, value.mapSpans_id]
    rfl
  | ruleset header rules children span hrules hchildren =>
    rw [mapSpans_ruleset, htokens, map_mapSpans_id hrules, map_mapSpans_id hchildren, id]
  | declare property values important span =>
    rw [mapSpans, hexprs]
    rfl
  | mixin name params body span hbody =>
    have hparams : params.map (Ident.mapSpan id) = params := List.map_id params
    rw [mapSpans_mixin, hparams, Block.mapSpans_id hbody, id]
  | expand name args span => rw [mapSpans, hexprs, id]
  | importFile path span => rfl
  | extend target span => rw [mapSpans, htokens, id]
  | branch condition yes no span hyes hno =>
    rw [mapSpans_branch, condition.mapSpans_id, Block.mapSpans_id hyes, id]
    rcases no with _ | b
    · rfl
    · rw [Option.map_some, Block.mapSpans_id (hno b rfl)]
  | expr value => rw [mapSpans, value.mapSpans_id]

/-! ### One change after another -/

/-- Mapping the spans of an expression twice is mapping them once by the composition. -/
lemma Expr.mapSpans_mapSpans (e : Expr) : (e.mapSpans g).mapSpans f = e.mapSpans (f ∘ g) := by
  induction e with
  | negate operand span ih =>
    simp only [mapSpans, ih]
    rfl
  | binary op left right span ihleft ihright =>
    simp only [mapSpans, ihleft, ihright]
    rfl
  | _ => rfl

/-- Mapping the spans of statements twice is mapping them once if it is so for each. -/
lemma Stmt.map_mapSpans_mapSpans {statements : List Stmt}
    (h : ∀ s ∈ statements, (s.mapSpans g).mapSpans f = s.mapSpans (f ∘ g)) :
    (statements.map (mapSpans g)).map (mapSpans f) = statements.map (mapSpans (f ∘ g)) := by
  rw [List.map_map]
  exact List.map_congr_left h

/-- Mapping the spans of a block twice is mapping them once if it is so for its statements. -/
lemma Block.mapSpans_mapSpans {b : Block Stmt}
    (h : ∀ s ∈ b.statements, (s.mapSpans g).mapSpans f = s.mapSpans (f ∘ g)) :
    Block.mapSpans f (b.mapSpans g) = b.mapSpans (f ∘ g) := by
  rw [mapSpans, mapSpans, mapSpans, Stmt.map_mapSpans_mapSpans h]
  rfl

/-- Mapping the spans of a statement twice is mapping them once by the composition. -/
lemma Stmt.mapSpans_mapSpans (s : Stmt) : (s.mapSpans g).mapSpans f = s.mapSpans (f ∘ g) := by
  have hexprs : ∀ es : List Expr, (es.map (Expr.mapSpans g)).map (Expr.mapSpans f) =
      es.map (Expr.mapSpans (f ∘ g)) := by
    intro es
    rw [List.map_map]
    exact List.map_congr_left fun e _ => e.mapSpans_mapSpans
  have htokens : ∀ ts : List Token, (ts.map (Token.mapSpan g)).map (Token.mapSpan f) =
      ts.map (Token.mapSpan (f ∘ g)) := fun ts => List.map_map
  induction s using Stmt.induct with
  | assign target value isGlobal isDefault span =>
    simp only [mapSpans, value.mapSpans_mapSpans]
    rfl
  | ruleset header rules children span hrules hchildren =>
    simp only [mapSpans_ruleset, htokens, map_mapSpans_mapSpans hrules,
      map_mapSpans_mapSpans hchildren]
    rfl
  | declare property values important span =>
    simp only [mapSpans, hexprs]
    rfl
  | mixin name params body span hbody =>
    have hparams : (params.map (Ident.mapSpan g)).map (Ident.mapSpan f) =
        params.map (Ident.mapSpan (f ∘ g)) := List.map_map
    simp only [mapSpans_mixin, hparams, Block.mapSpans_mapSpans hbody]
    rfl
  | expand name args span =>
    simp only [mapSpans, hexprs]
    rfl
  | importFile path span => rfl
  | extend target span =>
    simp only [mapSpans, htokens]
    rfl
  | branch condition yes no span hyes hno =>
    simp only [mapSpans_branch, condition.mapSpans_mapSpans, Block.mapSpans_mapSpans hyes]
    rcases no with _ | b
    · rfl
    · simp only [Option.map_some, Block.mapSpans_mapSpans (hno b rfl)]
      rfl
  | expr value => simp only [mapSpans, value.mapSpans_mapSpans]

/-! ### Errors -/

variable (f)

def Token.ScanError.mapSpan : ScanError → ScanError
  | unknown text span => .unknown text (f span)
  | unterminated what span => .unterminated what (f span)

/-- The error with its span changed. -/
def Sheet.ReadError.mapSpan : ReadError → ReadError
  | scan e => .scan (e.mapSpan f)
  | unexpected wanted found span => .unexpected wanted found (f span)
  | expectedExpression found span => .expectedExpression found (f span)
  | unclosed delimiter span => .unclosed delimiter (f span)

/-- What reading a sheet gives, with all spans changed. -/
def Sheet.mapSpans : Except ReadError Sheet → Except ReadError Sheet
  | .ok sheet => .ok (sheet.map (Stmt.mapSpans f))
  | .error e => .error (e.mapSpan f)

variable {f}

/-- Mapping its span to itself does not change an error. -/
lemma Sheet.ReadError.mapSpan_id (e : ReadError) : e.mapSpan id = e := by
  rcases e with e | _ | _ | _
  · cases e <;> rfl
  · rfl
  · rfl
  · rfl

/-- Mapping all spans to themselves does not change what is read. -/
lemma Sheet.mapSpans_id (r : Except ReadError Sheet) : Sheet.mapSpans id r = r := by
  rcases r with e | sheet
  · rw [mapSpans, e.mapSpan_id]
  · rw [mapSpans, Stmt.map_mapSpans_id fun s _ => s.mapSpans_id]

/-- A message does not tell the place. -/
lemma Sheet.ReadError.message_mapSpan (e : ReadError) : (e.mapSpan f).message = e.message := by
  rcases e with e | _ | _ | _
  · cases e <;> rfl
  · rfl
  · rfl
  · rfl

end StyleSheet

import Mathlib.Tactic.Lemma
import StyleSheet.Scope

/-!
# Statement trees

Induction on statements, where the statements of a block are the parts of the statement that holds
it, and two things to say about a tree: where its parts stand in the source (`Stmt.Located`), and
which mixins it declares (`Stmt.Declares`).
-/

namespace StyleSheet

/-- Induction on a statement: a statement with bodies has the property once all statements of its
bodies have it. -/
theorem Stmt.induct {motive : Stmt → Prop}
    (assign : ∀ target value isGlobal isDefault span,
      motive (.assign target value isGlobal isDefault span))
    (ruleset : ∀ header rules children span, (∀ s ∈ rules, motive s) →
      (∀ s ∈ children, motive s) → motive (.ruleset header rules children span))
    (declare : ∀ property values important span, motive (.declare property values important span))
    (mixin : ∀ name params body span, (∀ s ∈ body.statements, motive s) →
      motive (.mixin name params body span))
    (expand : ∀ name args span, motive (.expand name args span))
    (importFile : ∀ path span, motive (.importFile path span))
    (extend : ∀ target span, motive (.extend target span))
    (branch : ∀ condition yes no span, (∀ s ∈ yes.statements, motive s) →
      (∀ b ∈ no, ∀ s ∈ b.statements, motive s) → motive (.branch condition yes no span))
    (expr : ∀ value, motive (.expr value)) (s : Stmt) : motive s := by
  refine @Stmt.rec motive (fun l => ∀ s ∈ l, motive s) (fun b => ∀ s ∈ b.statements, motive s)
    (fun o => ∀ b ∈ o, ∀ s ∈ b.statements, motive s)
    assign ruleset declare mixin expand importFile extend branch expr
    (fun _ hs => absurd hs List.not_mem_nil) ?_ (fun _ _ h => h)
    (fun b hb => absurd hb (Option.not_mem_none b)) ?_ s
  · intro first rest hfirst hrest s hs
    rcases List.mem_cons.mp hs with rfl | hs
    · exact hfirst
    · exact hrest s hs
  · intro block hblock b hb
    obtain rfl := Option.mem_some.mp hb
    exact hblock

/-! ### Places -/

/-- All spans in the expression have a property. -/
def Expr.Located (P : Span → Prop) : Expr → Prop
  | var _ span | number _ _ span | text _ span | color _ span | bool _ span => P span
  | negate operand span => operand.Located P ∧ P span
  | binary _ left right span => left.Located P ∧ right.Located P ∧ P span
  | selector token => P token.span

/-- The span of an expression is one of its spans. -/
lemma Expr.Located.span {P : Span → Prop} {e : Expr} (h : e.Located P) : P e.span := by
  cases e with
  | negate => exact h.2
  | binary => exact h.2.2
  | _ => exact h

/-- All spans in the statement have a property. -/
inductive Stmt.Located (P : Span → Prop) : Stmt → Prop
  | assign {target : Ident} {value : Expr} {isGlobal isDefault : Bool} {span : Span}
    (htarget : P target.span) (hvalue : value.Located P) (hspan : P span) :
    Located P (.assign target value isGlobal isDefault span)
  | ruleset {header : List Token} {rules children : List Stmt} {span : Span}
    (hheader : ∀ t ∈ header, P t.span) (hrules : ∀ s ∈ rules, Located P s)
    (hchildren : ∀ s ∈ children, Located P s) (hspan : P span) :
    Located P (.ruleset header rules children span)
  | declare {property : Token} {values : List Expr} {important : Bool} {span : Span}
    (hproperty : P property.span) (hvalues : ∀ e ∈ values, e.Located P) (hspan : P span) :
    Located P (.declare property values important span)
  | mixin {name : String} {params : List Ident} {body : Block Stmt} {span : Span}
    (hparams : ∀ i ∈ params, P i.span) (hbody : ∀ s ∈ body.statements, Located P s)
    (hblock : P body.span) (hspan : P span) : Located P (.mixin name params body span)
  | expand {name : String} {args : List Expr} {span : Span} (hargs : ∀ e ∈ args, e.Located P)
    (hspan : P span) : Located P (.expand name args span)
  | importFile {path : String} {span : Span} (hspan : P span) : Located P (.importFile path span)
  | extend {target : List Token} {span : Span} (htarget : ∀ t ∈ target, P t.span)
    (hspan : P span) : Located P (.extend target span)
  | branch {condition : Expr} {yes : Block Stmt} {no : Option (Block Stmt)} {span : Span}
    (hcondition : condition.Located P) (hyes : ∀ s ∈ yes.statements, Located P s)
    (hblock : P yes.span) (hno : ∀ b ∈ no, ∀ s ∈ b.statements, Located P s)
    (hblocks : ∀ b ∈ no, P b.span) (hspan : P span) : Located P (.branch condition yes no span)
  | expr {value : Expr} (hvalue : value.Located P) : Located P (.expr value)

/-- The span of a statement is one of its spans. -/
lemma Stmt.Located.span {P : Span → Prop} {s : Stmt} (h : s.Located P) : P s.span := by
  cases h with
  | expr hvalue => exact hvalue.span
  | _ => assumption

/-! ### Declared mixins -/

/-- The statement declares the mixin, at the top or anywhere inside. -/
inductive Stmt.Declares (m : Mixin) : Stmt → Prop
  | here {name : String} {params : List Ident} {body : Block Stmt} {span : Span}
    (hm : m = ⟨name, params.map Ident.name, body.statements⟩) :
    Declares m (.mixin name params body span)
  | body {name : String} {params : List Ident} {body : Block Stmt} {span : Span} {s : Stmt}
    (hs : s ∈ body.statements) (h : Declares m s) : Declares m (.mixin name params body span)
  | rules {header : List Token} {rules children : List Stmt} {span : Span} {s : Stmt}
    (hs : s ∈ rules) (h : Declares m s) : Declares m (.ruleset header rules children span)
  | children {header : List Token} {rules children : List Stmt} {span : Span} {s : Stmt}
    (hs : s ∈ children) (h : Declares m s) : Declares m (.ruleset header rules children span)
  | yes {condition : Expr} {yes : Block Stmt} {no : Option (Block Stmt)} {span : Span} {s : Stmt}
    (hs : s ∈ yes.statements) (h : Declares m s) : Declares m (.branch condition yes no span)
  | no {condition : Expr} {yes : Block Stmt} {no : Option (Block Stmt)} {span : Span}
    {b : Block Stmt} {s : Stmt} (hb : b ∈ no) (hs : s ∈ b.statements) (h : Declares m s) :
    Declares m (.branch condition yes no span)

/-- One of the statements declares the mixin. -/
def Mixin.DeclaredIn (m : Mixin) (statements : List Stmt) : Prop := ∃ s ∈ statements, s.Declares m

/-- What the body of a declared mixin declares is declared too. -/
lemma Stmt.Declares.trans {m m' : Mixin} {s : Stmt} (h : s.Declares m)
    (hm' : m'.DeclaredIn m.body) :
    s.Declares m' := by
  induction h with
  | here hm =>
    subst hm
    obtain ⟨t, ht, hdeclares⟩ := hm'
    exact .body ht hdeclares
  | body hs _ ih => exact .body hs ih
  | rules hs _ ih => exact .rules hs ih
  | children hs _ ih => exact .children hs ih
  | yes hs _ ih => exact .yes hs ih
  | no hb hs _ ih => exact .no hb hs ih

/-- A mixin that is declared in the body of another one is declared where that one is. -/
lemma Mixin.DeclaredIn.trans {m m' : Mixin} {statements : List Stmt} (h : m.DeclaredIn statements)
    (hm' : m'.DeclaredIn m.body) : m'.DeclaredIn statements := by
  obtain ⟨s, hs, hdeclares⟩ := h
  exact ⟨s, hs, hdeclares.trans hm'⟩

/-- The body of a declared mixin stands where the statement stands. -/
lemma Stmt.Declares.located_body {m : Mixin} {s : Stmt} {P : Span → Prop} (h : s.Declares m)
    (hs : s.Located P) : ∀ t ∈ m.body, t.Located P := by
  induction h with
  | here hm =>
    subst hm
    cases hs with
    | mixin _ hbody => exact hbody
  | body hmem _ ih =>
    cases hs with
    | mixin _ hbody => exact ih (hbody _ hmem)
  | rules hmem _ ih =>
    cases hs with
    | ruleset _ hrules => exact ih (hrules _ hmem)
  | children hmem _ ih =>
    cases hs with
    | ruleset _ _ hchildren => exact ih (hchildren _ hmem)
  | yes hmem _ ih =>
    cases hs with
    | branch _ hyes => exact ih (hyes _ hmem)
  | no hb hmem _ ih =>
    cases hs with
    | branch _ _ _ hno => exact ih (hno _ hb _ hmem)

/-- The spans in the body of a mixin are spans of the statements that declare it. -/
lemma Mixin.DeclaredIn.located_body {m : Mixin} {statements : List Stmt} {P : Span → Prop}
    (h : m.DeclaredIn statements) (hs : ∀ s ∈ statements, s.Located P) :
    ∀ t ∈ m.body, t.Located P := by
  obtain ⟨s, hmem, hdeclares⟩ := h
  exact hdeclares.located_body (hs s hmem)

end StyleSheet

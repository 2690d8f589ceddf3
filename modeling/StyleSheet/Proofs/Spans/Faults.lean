import StyleSheet.Proofs.Grammar.Trees
import StyleSheet.Proofs.Spans.Blame
import StyleSheet.Proofs.Spans.OneLine
import StyleSheet.Proofs.Spans.Origin
import StyleSheet.Sheet.Outline

/-!
# The faults that a sheet can raise

A statement that imports nothing raises only faults that can be read off from it: an undefined
variable at the variable, a stray `&` at its token, a fault of an operator at the operation, and so
on.  `Stmt.RaisesOnly` says of a relation between faults and places that it holds of all of these.

A run of such statements fails with one of their faults.  It also runs bodies of mixins.  These were
declared by the same statements, so the relation holds of what they raise as well: that is an
invariant of the scopes, and the run keeps it.
-/

namespace StyleSheet

variable {F : Fault → Span → Prop}

/-- The relation holds of all faults of the statement, which imports nothing. -/
inductive Stmt.RaisesOnly (F : Fault → Span → Prop) : Stmt → Prop
  | assign {target : Ident} {value : Expr} {isGlobal isDefault : Bool} {span : Span}
    (hvalue : value.RaisesOnly F) : RaisesOnly F (.assign target value isGlobal isDefault span)
  | ruleset {header : List Token} {rules children : List Stmt} {span : Span}
    (hheader : ∀ t ∈ header, t.kind = .parentReference →
      F .strayParentReference (if t.span.isEmpty then span else t.span))
    (hrules : ∀ s ∈ rules, RaisesOnly F s) (hchildren : ∀ s ∈ children, RaisesOnly F s) :
    RaisesOnly F (.ruleset header rules children span)
  | declare {property : Token} {values : List Expr} {important : Bool} {span : Span}
    (hstray : F .strayDeclaration span) (hvalues : ∀ e ∈ values, e.RaisesOnly F) :
    RaisesOnly F (.declare property values important span)
  | mixin {name : String} {params : List Ident} {body : Block Stmt} {span : Span}
    (hbody : ∀ s ∈ body.statements, RaisesOnly F s) : RaisesOnly F (.mixin name params body span)
  | expand {name : String} {args : List Expr} {span : Span}
    (hundefined : F (.undefinedMixin name) span)
    (hmissing : ∀ expected got, F (.missingArguments name expected got) span)
    (hargs : ∀ e ∈ args, e.RaisesOnly F) : RaisesOnly F (.expand name args span)
  | extend {target : List Token} {span : Span} : RaisesOnly F (.extend target span)
  | branch {condition : Expr} {yes : Block Stmt} {no : Option (Block Stmt)} {span : Span}
    (hcondition : condition.RaisesOnly F)
    (hmisuse : ∀ shape, F (.misuse (.condition shape)) condition.span)
    (hyes : ∀ s ∈ yes.statements, RaisesOnly F s)
    (hno : ∀ b ∈ no, ∀ s ∈ b.statements, RaisesOnly F s) :
    RaisesOnly F (.branch condition yes no span)
  | expr {value : Expr} (hvalue : value.RaisesOnly F) : RaisesOnly F (.expr value)

/-! ### Runs -/

/-- The relation holds of all faults in the body of the mixin. -/
def Mixin.RaisesOnly (F : Fault → Span → Prop) (m : Mixin) : Prop := ∀ s ∈ m.body, s.RaisesOnly F

namespace Evaluation

variable {α β : Type} {s : State}

/-- From a state with mixins whose faults are in the relation, the evaluation ends in such a state,
and if it fails, with such a fault. -/
def RaisesAt (F : Fault → Span → Prop) (s : State) (x : Evaluation α) : Prop :=
  s.env.Knows (Mixin.RaisesOnly F) →
    (x s).2.env.Knows (Mixin.RaisesOnly F) ∧ ∀ e, (x s).1 = .failed e → e.RaisedIn F

def RaisesOnly (F : Fault → Span → Prop) (x : Evaluation α) : Prop := ∀ s, RaisesAt F s x

/-- An evaluation that does nothing raises nothing. -/
lemma raisesOnly_pure (a : α) : RaisesOnly F (pure a : Evaluation α) := fun _ hs => ⟨hs, nofun⟩

/-- A run that is too deep raises nothing. -/
lemma raisesOnly_tooDeep : RaisesOnly F (tooDeep : Evaluation α) := fun _ hs => ⟨hs, nofun⟩

/-- A failure raises the fault that it names. -/
lemma raisesOnly_fail {fault : Fault} {span : Span} (h : F fault span) :
    RaisesOnly F (fail fault span : Evaluation α) := by
  refine fun s hs => ⟨hs, ?_⟩
  rintro e ⟨⟩
  exact ⟨fault, span, rfl, h⟩

/-- A result that is known raises only its own error. -/
lemma raisesOnly_ofExcept {r : Except EvalError α} (h : ∀ e, r = .error e → e.RaisedIn F) :
    RaisesOnly F (ofExcept r) := by
  cases r with
  | ok a => exact raisesOnly_pure a
  | error e =>
    refine fun s hs => ⟨hs, ?_⟩
    rintro e ⟨⟩
    exact h e rfl

/-- A change of the scopes raises nothing, and must keep the property of all mixins. -/
lemma raisesOnly_change {f : Environment → Environment}
    (hf : ∀ e, e.Knows (Mixin.RaisesOnly F) → (f e).Knows (Mixin.RaisesOnly F)) :
    RaisesOnly F (change f) :=
  fun s hs => ⟨hf s.env hs, nofun⟩

/-- Evaluations that follow one another raise only what they raise on their own. -/
lemma RaisesOnly.bind {x : Evaluation α} {f : α → Evaluation β} (hx : RaisesOnly F x)
    (hf : ∀ a, RaisesOnly F (f a)) : RaisesOnly F (x >>= f) := by
  intro s hs
  obtain ⟨ht, herror⟩ := hx s hs
  change (Evaluation.bind x f s).2.env.Knows _ ∧ ∀ e, (Evaluation.bind x f s).1 = .failed e → _
  unfold Evaluation.bind
  rcases hxs : x s with ⟨a | e | _, t⟩
  · rw [hxs] at ht
    exact hf a t ht
  · rw [hxs] at ht herror
    refine ⟨ht, ?_⟩
    rintro e ⟨⟩
    exact herror e rfl
  · rw [hxs] at ht
    exact ⟨ht, nofun⟩

/-- What an evaluation does may depend on the state it starts in. -/
lemma raisesOnly_state_bind {f : State → Evaluation β}
    (hf : ∀ s, s.env.Knows (Mixin.RaisesOnly F) → RaisesAt F s (f s)) :
    RaisesOnly F (state >>= f) :=
  fun s hs => hf s hs hs

/-- A choice raises only what its sides raise. -/
lemma raisesOnly_ite {c : Prop} [Decidable c] {x y : Evaluation α} (hx : RaisesOnly F x)
    (hy : RaisesOnly F y) : RaisesOnly F (if c then x else y) :=
  iteInduction (fun _ => hx) fun _ => hy

/-- An evaluation in a scope of its own raises the same. -/
lemma RaisesOnly.within {x : Evaluation α} (hx : RaisesOnly F x) {enter : Environment → Environment}
    (henter : ∀ e, e.Knows (Mixin.RaisesOnly F) → (enter e).Knows (Mixin.RaisesOnly F)) :
    RaisesOnly F (within enter x) :=
  fun s hs => hx { s with env := enter s.env } (henter s.env hs)

/-! ### Statements -/

/-- An expression raises only its faults. -/
lemma raisesOnly_valueOf {e : Expr} (he : e.RaisesOnly F) : RaisesOnly F (valueOf e) :=
  raisesOnly_state_bind fun s _ => raisesOnly_ofExcept (fun _ h => he.raisedIn_value h) s

/-- Expressions raise only their faults. -/
lemma raisesOnly_valuesOf {es : List Expr} (hes : ∀ e ∈ es, e.RaisesOnly F) :
    RaisesOnly F (valuesOf es) :=
  raisesOnly_state_bind fun s _ =>
    raisesOnly_ofExcept (fun _ h => Expr.raisedIn_values hes h) s

/-- An assignment raises only the faults of its value. -/
lemma raisesOnly_assign {value : Expr} (hvalue : value.RaisesOnly F) (name : String)
    (isGlobal isDefault : Bool) : RaisesOnly F (assign name value isGlobal isDefault) := by
  refine raisesOnly_state_bind fun s _ => raisesOnly_ite (raisesOnly_pure ()) ?_ s
  refine (raisesOnly_valueOf hvalue).bind fun v => raisesOnly_change fun e he => ?_
  split
  · exact he.defineGlobal name v
  · exact he.define name v

/-- Only an `&` in the header is a stray one. -/
lemma raisesOnly_selectorsOf {header : List Token} {span : Span}
    (hheader : ∀ t ∈ header, t.kind = .parentReference →
      F .strayParentReference (if t.span.isEmpty then span else t.span)) (enclosing : Enclosing) :
    RaisesOnly F (selectorsOf enclosing header span) := by
  unfold selectorsOf
  cases hcompose : Selector.compose enclosing header with
  | ok selectors => exact raisesOnly_pure selectors
  | error reference =>
    obtain ⟨hmem, hkind⟩ := Selector.mem_of_compose hcompose
    exact raisesOnly_fail (hheader reference hmem hkind)

/-- A declaration raises only the faults of its values, or that it is out of place. -/
lemma raisesOnly_declare {values : List Expr} {span : Span} (hstray : F .strayDeclaration span)
    (hvalues : ∀ e ∈ values, e.RaisesOnly F) (enclosing : Enclosing) (property : Token)
    (important : Bool) : RaisesOnly F (declare enclosing property values important span) :=
  raisesOnly_ite (raisesOnly_fail hstray)
    ((raisesOnly_valuesOf hvalues).bind fun _ => raisesOnly_pure _)

/-- A condition raises only its faults, or that it is no truth value. -/
lemma raisesOnly_truthOf {condition : Expr} (hcondition : condition.RaisesOnly F)
    (hmisuse : ∀ shape, F (.misuse (.condition shape)) condition.span) :
    RaisesOnly F (truthOf condition) := by
  refine (raisesOnly_valueOf hcondition).bind fun v => ?_
  cases v with
  | bool b => exact raisesOnly_pure b
  | _ => exact raisesOnly_fail (hmisuse _)

section Deeper

variable {setting : Setting} {deeper : Enclosing → List Stmt → Evaluation Output}
  (hdeeper : ∀ enclosing statements, (∀ s ∈ statements, s.RaisesOnly F) →
    RaisesOnly F (deeper enclosing statements))

include hdeeper

/-- The expansion of a mixin raises only that the mixin is not there, that arguments are missing,
and the faults of the arguments and the body. -/
lemma raisesOnly_expand {name : String} {args : List Expr} {span : Span}
    (hundefined : F (.undefinedMixin name) span)
    (hmissing : ∀ expected got, F (.missingArguments name expected got) span)
    (hargs : ∀ e ∈ args, e.RaisesOnly F) (enclosing : Enclosing) :
    RaisesOnly F (expand deeper enclosing name args span) := by
  refine raisesOnly_state_bind fun s hs => ?_
  split
  · exact raisesOnly_fail hundefined s
  · rename_i b hb
    obtain ⟨hlookup, -⟩ := Option.filter_eq_some_iff.mp hb
    refine raisesOnly_ite (raisesOnly_fail (hmissing _ _)) ?_ s
    refine (raisesOnly_valuesOf hargs).bind fun values => ?_
    exact (hdeeper enclosing b.mixin.body (hs.lookupMixin hlookup)).within
      fun e he => (he.pushIn _).bindParams _ _

/-- Each construct raises only faults of the statement it is part of. -/
lemma related_raisesOnly : Meaning.Related (Stmt.RaisesOnly F)
    (.ofWays (expand deeper) (importFile setting deeper))
    (.ofWays (expand deeper) (importFile setting deeper)) fun _ x _ => RaisesOnly F x where
  empty _ := raisesOnly_pure _
  append hx hy := hx.bind fun _ => hy.bind fun _ => raisesOnly_pure _
  assign hs := by
    cases hs with
    | assign hvalue => exact (raisesOnly_assign hvalue _ _ _).bind fun _ => raisesOnly_pure _
  ruleset hs hbody := by
    cases hs with
    | ruleset hheader =>
      refine (raisesOnly_selectorsOf hheader _).bind fun selectors => ?_
      exact ((hbody selectors).within fun e he => he.pushIn _).bind fun _ => raisesOnly_pure _
  declare hs := by
    cases hs with
    | declare hstray hvalues => exact raisesOnly_declare hstray hvalues _ _ _
  mixin {_ name params body _} hs := by
    cases hs with
    | mixin hbody =>
      have hmixin : Mixin.RaisesOnly F ⟨name, params.map Ident.name, body.statements⟩ := hbody
      exact (raisesOnly_change fun e he => he.defineMixin hmixin).bind fun _ => raisesOnly_pure _
  expand hs := by
    cases hs with
    | expand hundefined hmissing hargs =>
      exact raisesOnly_expand hdeeper hundefined hmissing hargs _
  -- a statement with this property imports nothing
  importFile hs := by cases hs
  branch hs hyes hno := by
    cases hs with
    | branch hcondition hmisuse =>
      refine (raisesOnly_truthOf hcondition hmisuse).bind fun truth => ?_
      refine raisesOnly_ite (hyes.within fun e he => he.pushIn _) ?_
      cases hno with
      | none => exact raisesOnly_pure _
      | some hno => exact hno.within fun e he => he.pushIn _
  expr hs := by
    cases hs with
    | expr hvalue => exact (raisesOnly_valueOf hvalue).bind fun _ => raisesOnly_pure _

omit hdeeper in
/-- The parts of a statement raise only faults of the statement. -/
lemma hereditary_raisesOnly : Stmt.Hereditary (Stmt.RaisesOnly F) where
  rules hs := by
    cases hs with
    | ruleset _ hrules => exact hrules
  children hs := by
    cases hs with
    | ruleset _ _ hchildren => exact hchildren
  yes hs := by
    cases hs with
    | branch _ _ hyes => exact hyes
  no hs := by
    cases hs with
    | branch _ _ _ hno => exact hno

/-- Statements raise only faults of their own. -/
lemma raisesOnly_runAll (enclosing : Enclosing) {statements : List Stmt}
    (hs : ∀ s ∈ statements, s.RaisesOnly F) :
    RaisesOnly F (runAll setting deeper enclosing statements) := by
  rw [runAll_eq_runAllBy]
  exact (related_raisesOnly hdeeper).runAll hereditary_raisesOnly hs enclosing

end Deeper

/-- By induction on the depth, runs of statements raise only the faults of the statements. -/
lemma raisesOnly_runUpTo (setting : Setting) (depth : Nat) (enclosing : Enclosing)
    (statements : List Stmt) (h : ∀ s ∈ statements, s.RaisesOnly F) :
    RaisesOnly F (runUpTo setting depth enclosing statements) := by
  induction depth generalizing enclosing statements with
  | zero => exact raisesOnly_tooDeep
  | succ depth ih => exact raisesOnly_runAll ih enclosing h

end Evaluation

/-! ### Faults of what is read -/

/-- Where there is no import at all, no single statement has one. -/
lemma Sheet.importsOf_eq_nil {statements : List Stmt} (h : importsOfAll statements = []) :
    ∀ s ∈ statements, importsOf s = [] := by
  induction statements with
  | nil => exact fun s hs => absurd hs List.not_mem_nil
  | cons first rest ih =>
    rw [importsOfAll, List.append_eq_nil_iff] at h
    exact List.forall_mem_cons.mpr ⟨h.1, ih h.2⟩

section Built

variable {T : Token → Prop}
  (hvariable : ∀ t, T t → t.kind = .variableName → F (.undefinedVariable t.text) t.span)
  (hreference : ∀ t span, T t → t.kind = .parentReference → span.Made T →
    F .strayParentReference (if t.span.isEmpty then span else t.span))
  (hother : ∀ fault span, span.Made T →
    fault.code ∉ Diagnostic.Code.oneLine → F fault span)

include hother

/-- A fault of arithmetic at a span of tokens is in the relation. -/
lemma Fault.raises_ofArithmetic {span : Span} (hspan : span.Made T)
    (cause : Value.ArithmeticError) : F (.ofArithmetic cause) span := by
  refine hother _ span hspan ?_
  cases cause with
  | misuse m => exact show Diagnostic.Code.operandMismatch ∉ _ by decide
  | divisionByZero => decide

include hvariable

/-- All faults of an expression that is built from tokens are in the relation. -/
lemma Expr.Built.raisesOnly {e : Expr} (h : e.Built T) : e.RaisesOnly F := by
  induction h with
  | var ht hkind => exact hvariable _ ht hkind
  | negate _ hspan ih => exact ⟨ih, Fault.raises_ofArithmetic hother hspan⟩
  | binary _ _ hspan ihleft ihright =>
    exact ⟨ihleft, ihright, Fault.raises_ofArithmetic hother hspan⟩
  | _ => trivial

include hreference

/-- Variables and references stand at their own tokens, other faults at spans that tokens make
up. -/
lemma Stmt.Built.raisesOnly {s : Stmt} (h : s.Built T) (himports : Sheet.importsOf s = []) :
    s.RaisesOnly F := by
  have hexpr : ∀ e : Expr, e.Built T → e.RaisesOnly F :=
    fun _ he => he.raisesOnly hvariable hother
  induction h with
  | assign _ hvalue _ => exact .assign (hexpr _ hvalue)
  | ruleset hheader _ _ hspan hrules hchildren =>
    rw [Sheet.importsOf, List.append_eq_nil_iff] at himports
    refine .ruleset (fun t ht hkind => hreference t _ (hheader t ht) hkind hspan) ?_ ?_
    · exact fun s hs => hrules s hs (Sheet.importsOf_eq_nil himports.1 s hs)
    · exact fun s hs => hchildren s hs (Sheet.importsOf_eq_nil himports.2 s hs)
  | declare _ hvalues hspan =>
    exact .declare (hother _ _ hspan (by decide)) fun e he => hexpr e (hvalues e he)
  | mixin _ _ _ _ hbody =>
    rw [Sheet.importsOf] at himports
    exact .mixin fun s hs => hbody s hs (Sheet.importsOf_eq_nil himports s hs)
  | expand hargs hspan =>
    refine .expand (hother _ _ hspan ?_) (fun _ _ => hother _ _ hspan ?_) ?_
    · exact show Diagnostic.Code.undefinedMixin ∉ _ by decide
    · exact show Diagnostic.Code.missingArguments ∉ _ by decide
    · exact fun e he => hexpr e (hargs e he)
  | importFile _ => cases himports
  | extend _ _ => exact .extend
  | @branch condition yes no span hcondition _ _ _ _ _ hyes hno =>
    unfold Sheet.importsOf at himports
    rw [List.append_eq_nil_iff] at himports
    refine .branch (hexpr _ hcondition) (fun _ => hother _ _ hcondition.span ?_) ?_ ?_
    · exact show Diagnostic.Code.operandMismatch ∉ _ by decide
    · exact fun s hs => hyes s hs (Sheet.importsOf_eq_nil himports.1 s hs)
    · rintro b rfl s hs
      exact hno b rfl s hs (Sheet.importsOf_eq_nil himports.2 s hs)
  | expr hvalue => exact .expr (hexpr _ hvalue)

end Built

end StyleSheet

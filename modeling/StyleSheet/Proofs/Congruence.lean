import StyleSheet.Evaluation.Statement
import StyleSheet.Proofs.Tree

/-!
# Relations between runs

Many statements on runs are of one form: something holds of the run of every statement, or relates
two runs of every statement, because each construct of the evaluation keeps it.  The induction over
statements is made here once.

A `Meaning` says what each construct of statements does, for results of any type, and
`Meaning.run` puts statements together from it.  The evaluation is one of them (`run_eq_runBy`), and
so are the runs that are compared with it: those that expand and import in another way (`runBy`),
and those that keep a record.  Two meanings are `Related` if they do related things construct by
construct, and then they do related things with every statement (`Related.run`).  A property of
single runs is a relation that looks at one side only.

For evaluations the constructs are made up of a few parts.  `Congruent` lists them, and a relation
that is congruent relates all meanings whose expansions and imports it relates.
-/

namespace StyleSheet

/-- The predicate goes on to the statements that are run with a statement. -/
structure Stmt.Hereditary (G : Stmt → Prop) : Prop where
  rules : ∀ {header rules children span}, G (.ruleset header rules children span) →
    ∀ s ∈ rules, G s
  children : ∀ {header rules children span}, G (.ruleset header rules children span) →
    ∀ s ∈ children, G s
  yes : ∀ {condition yes no span}, G (.branch condition yes no span) → ∀ s ∈ yes.statements, G s
  no : ∀ {condition yes no span}, G (.branch condition yes no span) →
    ∀ b ∈ no, ∀ s ∈ b.statements, G s

/-- All statements are allowed. -/
lemma Stmt.hereditary_true : Hereditary fun _ => True :=
  ⟨fun _ _ _ => trivial, fun _ _ _ => trivial, fun _ _ _ => trivial, fun _ _ _ _ _ => trivial⟩

namespace Evaluation

/-! ### Meanings of statements -/

/-- What the constructs of statements do. -/
structure Meaning (D : Type) where
  empty : D
  /-- One after the other. -/
  append : D → D → D
  assign : String → Expr → Bool → Bool → D
  /-- A ruleset; its statements are run under its selectors. -/
  ruleset : Enclosing → List Token → Span → (List String → D) → D
  declare : Enclosing → Token → List Expr → Bool → Span → D
  mixin : Mixin → D
  expand : Enclosing → String → List Expr → Span → D
  importFile : Enclosing → String → Span → D
  branch : Expr → D → Option D → D
  expr : Expr → D

namespace Meaning

variable {D D' : Type}

mutual

/-- One statement, put together from its parts. -/
def run (m : Meaning D) (enclosing : Enclosing) : Stmt → D
  | .assign target value isGlobal isDefault _ => m.assign target.name value isGlobal isDefault
  | .ruleset header rules children span =>
    m.ruleset enclosing header span fun selectors =>
      m.append (m.runAll (some selectors) rules) (m.runAll (some selectors) children)
  | .declare property values important span => m.declare enclosing property values important span
  | .mixin name params ⟨body, _⟩ _ => m.mixin ⟨name, params.map Ident.name, body⟩
  | .expand name args span => m.expand enclosing name args span
  | .importFile path span => m.importFile enclosing path span
  | .extend _ _ => m.empty
  | .branch condition ⟨yes, _⟩ no _ =>
    m.branch condition (m.runAll enclosing yes)
      (match no with
        | some ⟨statements, _⟩ => some (m.runAll enclosing statements)
        | none => none)
  | .expr value => m.expr value

/-- Statements one after another. -/
def runAll (m : Meaning D) (enclosing : Enclosing) : List Stmt → D
  | [] => m.empty
  | s :: rest => m.append (m.run enclosing s) (m.runAll enclosing rest)

end

/-- Both meanings do related things with the parts of the statements that the predicate allows, if
they do so with the statements inside of them. -/
structure Related (G : Stmt → Prop) (m : Meaning D) (m' : Meaning D')
    (C : Enclosing → D → D' → Prop) : Prop where
  empty : ∀ enclosing, C enclosing m.empty m'.empty
  append : ∀ {enclosing x x' y y'}, C enclosing x x' → C enclosing y y' →
    C enclosing (m.append x y) (m'.append x' y')
  assign : ∀ {enclosing target value isGlobal isDefault span},
    G (.assign target value isGlobal isDefault span) →
      C enclosing (m.assign target.name value isGlobal isDefault)
        (m'.assign target.name value isGlobal isDefault)
  ruleset : ∀ {enclosing header rules children span x x'},
    G (.ruleset header rules children span) →
      (∀ selectors, C (some selectors) (x selectors) (x' selectors)) →
        C enclosing (m.ruleset enclosing header span x) (m'.ruleset enclosing header span x')
  declare : ∀ {enclosing property values important span},
    G (.declare property values important span) →
      C enclosing (m.declare enclosing property values important span)
        (m'.declare enclosing property values important span)
  mixin : ∀ {enclosing name params body span}, G (.mixin name params body span) →
    C enclosing (m.mixin ⟨name, params.map Ident.name, body.statements⟩)
      (m'.mixin ⟨name, params.map Ident.name, body.statements⟩)
  expand : ∀ {enclosing name args span}, G (.expand name args span) →
    C enclosing (m.expand enclosing name args span) (m'.expand enclosing name args span)
  importFile : ∀ {enclosing path span}, G (.importFile path span) →
    C enclosing (m.importFile enclosing path span) (m'.importFile enclosing path span)
  branch : ∀ {enclosing condition yes no span x x' y y'}, G (.branch condition yes no span) →
    C enclosing x x' → Option.Rel (C enclosing) y y' →
      C enclosing (m.branch condition x y) (m'.branch condition x' y')
  expr : ∀ {enclosing value}, G (.expr value) → C enclosing (m.expr value) (m'.expr value)

namespace Related

variable {G : Stmt → Prop} {m : Meaning D} {m' : Meaning D'} {C : Enclosing → D → D' → Prop}

/-- Related meanings do related things with statements if they do so with each. -/
lemma runAll_of_forall (h : Related G m m' C) {enclosing : Enclosing} {statements : List Stmt}
    (hs : ∀ s ∈ statements, C enclosing (m.run enclosing s) (m'.run enclosing s)) :
    C enclosing (m.runAll enclosing statements) (m'.runAll enclosing statements) := by
  induction statements with
  | nil =>
    unfold Meaning.runAll
    exact h.empty enclosing
  | cons first rest ih =>
    unfold Meaning.runAll
    exact h.append (hs first List.mem_cons_self)
      (ih fun s hmem => hs s (List.mem_cons_of_mem _ hmem))

/-- Related meanings do related things with every statement. -/
theorem run (h : Related G m m' C) (hG : Stmt.Hereditary G) {s : Stmt} (hs : G s)
    (enclosing : Enclosing) : C enclosing (m.run enclosing s) (m'.run enclosing s) := by
  induction s using Stmt.induct generalizing enclosing with
  | assign target value isGlobal isDefault span =>
    unfold Meaning.run
    exact h.assign hs
  | ruleset header rules children span hrules hchildren =>
    unfold Meaning.run
    -- the body runs below whatever selectors the header has got
    refine h.ruleset hs fun selectors => ?_
    have hown := h.runAll_of_forall fun s hmem =>
      hrules s hmem (hG.rules hs s hmem) (some selectors)
    have hnested := h.runAll_of_forall fun s hmem =>
      hchildren s hmem (hG.children hs s hmem) (some selectors)
    exact h.append hown hnested
  | declare property values important span =>
    unfold Meaning.run
    exact h.declare hs
  | mixin name params body span _ =>
    obtain ⟨statements, around⟩ := body
    unfold Meaning.run
    exact h.mixin hs
  | expand name args span =>
    unfold Meaning.run
    exact h.expand hs
  | importFile path span =>
    unfold Meaning.run
    exact h.importFile hs
  | extend target span =>
    unfold Meaning.run
    exact h.empty enclosing
  | branch condition yes no span hyes hno =>
    obtain ⟨statements, around⟩ := yes
    have hbody := h.runAll_of_forall fun s hmem => hyes s hmem (hG.yes hs s hmem) enclosing
    unfold Meaning.run
    cases no with
    | none => exact h.branch hs hbody .none
    | some b =>
      have hother := h.runAll_of_forall fun s hmem =>
        hno b rfl s hmem (hG.no hs b rfl s hmem) enclosing
      exact h.branch hs hbody (.some hother)
  | expr value =>
    unfold Meaning.run
    exact h.expr hs

/-- Related meanings do related things with every list of statements. -/
theorem runAll (h : Related G m m' C) (hG : Stmt.Hereditary G) {statements : List Stmt}
    (hs : ∀ s ∈ statements, G s) (enclosing : Enclosing) :
    C enclosing (m.runAll enclosing statements) (m'.runAll enclosing statements) :=
  h.runAll_of_forall fun s hmem => h.run hG (hs s hmem) enclosing

end Related

/-- As the evaluation, with other ways to expand mixins and to import files. -/
def ofWays (expandBy : Enclosing → String → List Expr → Span → Evaluation Output)
    (importBy : Enclosing → String → Span → Evaluation Output) : Meaning (Evaluation Output) where
  empty := return .empty
  append x y := do
    let first ← x
    let others ← y
    return first ++ others
  assign name value isGlobal isDefault := do
    Evaluation.assign name value isGlobal isDefault
    return .empty
  ruleset enclosing header span x := do
    let selectors ← selectorsOf enclosing header span
    let body ← within (·.push) (x selectors)
    return body.close selectors
  declare := Evaluation.declare
  mixin m := do
    change (·.defineMixin m)
    return .empty
  expand := expandBy
  importFile := importBy
  branch condition yes no := do
    if ← truthOf condition then within (·.push) yes
    else
      match no with
      | some x => within (·.push) x
      | none => return .empty
  expr value := do
    let _ ← valueOf value
    return .empty

end Meaning

/-! ### Runs with expansion and import as parameters -/

section Parameters

variable (expandBy : Enclosing → String → List Expr → Span → Evaluation Output)
  (importBy : Enclosing → String → Span → Evaluation Output)

/-- As `run`, with other ways to expand mixins and to import files. -/
def runBy (enclosing : Enclosing) (s : Stmt) : Evaluation Output :=
  (Meaning.ofWays expandBy importBy).run enclosing s

/-- As `runAll`, with other ways to expand mixins and to import files. -/
def runAllBy (enclosing : Enclosing) (statements : List Stmt) : Evaluation Output :=
  (Meaning.ofWays expandBy importBy).runAll enclosing statements

end Parameters

section Instance

variable {setting : Setting} {deeper : Enclosing → List Stmt → Evaluation Output}

/-- Statements are evaluated as a meaning says if each of them is. -/
lemma runAll_eq_runAllBy_of_forall {enclosing : Enclosing} {statements : List Stmt}
    (h : ∀ s ∈ statements, run setting deeper enclosing s =
      runBy (expand deeper) (importFile setting deeper) enclosing s) :
    runAll setting deeper enclosing statements =
      runAllBy (expand deeper) (importFile setting deeper) enclosing statements := by
  induction statements with
  | nil =>
    rw [runAll, runAllBy, Meaning.runAll]
    rfl
  | cons first rest ih =>
    rw [runAll, runAllBy, Meaning.runAll, h first List.mem_cons_self,
      ih fun s hs => h s (List.mem_cons_of_mem first hs)]
    rfl

/-- The evaluation of a statement is a run with the expansions and imports of the evaluation. -/
lemma run_eq_runBy (s : Stmt) (enclosing : Enclosing) :
    run setting deeper enclosing s =
      runBy (expand deeper) (importFile setting deeper) enclosing s := by
  induction s using Stmt.induct generalizing enclosing with
  | ruleset header rules children span hrules hchildren =>
    have hown : ∀ selectors, runAll setting deeper (some selectors) rules =
        runAllBy (expand deeper) (importFile setting deeper) (some selectors) rules :=
      fun selectors => runAll_eq_runAllBy_of_forall fun s hs => hrules s hs (some selectors)
    have hnested : ∀ selectors, runAll setting deeper (some selectors) children =
        runAllBy (expand deeper) (importFile setting deeper) (some selectors) children :=
      fun selectors => runAll_eq_runAllBy_of_forall fun s hs => hchildren s hs (some selectors)
    rw [run, runBy, Meaning.run]
    simp only [hown, hnested]
    rfl
  | branch condition yes no span hyes hno =>
    obtain ⟨statements, _⟩ := yes
    have hyes : runAll setting deeper enclosing statements =
        runAllBy (expand deeper) (importFile setting deeper) enclosing statements :=
      runAll_eq_runAllBy_of_forall fun s hs => hyes s hs enclosing
    cases no with
    | none =>
      rw [run, runBy, Meaning.run, hyes]
      rfl
    | some b =>
      obtain ⟨others, _⟩ := b
      have hno : runAll setting deeper enclosing others =
          runAllBy (expand deeper) (importFile setting deeper) enclosing others :=
        runAll_eq_runAllBy_of_forall fun s hs => hno ⟨others, _⟩ rfl s hs enclosing
      rw [run, runBy, Meaning.run, hyes, hno]
      rfl
  | mixin name params body span _ =>
    obtain ⟨statements, _⟩ := body
    rw [run, runBy, Meaning.run]
    rfl
  | _ =>
    rw [run, runBy, Meaning.run]
    rfl

/-- The evaluation of statements is a run with the expansions and imports of the evaluation. -/
lemma runAll_eq_runAllBy (statements : List Stmt) (enclosing : Enclosing) :
    runAll setting deeper enclosing statements =
      runAllBy (expand deeper) (importFile setting deeper) enclosing statements :=
  runAll_eq_runAllBy_of_forall fun s _ => run_eq_runBy s enclosing

end Instance

/-! ### Congruent relations -/

/-- The relation holds of the parts of a run and is kept by its constructs. -/
structure Congruent (C : ∀ ⦃α : Type⦄, Evaluation α → Evaluation α → Prop) : Prop where
  pure : ∀ ⦃α : Type⦄ (a : α), C (pure a) (pure a)
  bind : ∀ ⦃α β : Type⦄ ⦃x y : Evaluation α⦄ ⦃f g : α → Evaluation β⦄, C x y →
    (∀ a, C (f a) (g a)) → C (x >>= f) (y >>= g)
  /-- A scope is entered below the innermost one, and left again. -/
  within : ∀ ⦃x y : Evaluation Output⦄, C x y → C (within (·.push) x) (within (·.push) y)
  valueOf : ∀ e, C (valueOf e) (valueOf e)
  truthOf : ∀ condition, C (truthOf condition) (truthOf condition)
  selectorsOf : ∀ enclosing header span,
    C (selectorsOf enclosing header span) (selectorsOf enclosing header span)
  declare : ∀ enclosing property values important span,
    C (declare enclosing property values important span)
      (declare enclosing property values important span)
  assign : ∀ name value isGlobal isDefault,
    C (assign name value isGlobal isDefault) (assign name value isGlobal isDefault)
  defineMixin : ∀ m, C (change (·.defineMixin m)) (change (·.defineMixin m))

namespace Congruent

variable {C : ∀ ⦃α : Type⦄, Evaluation α → Evaluation α → Prop}
  {expandBy expandBy' : Enclosing → String → List Expr → Span → Evaluation Output}
  {importBy importBy' : Enclosing → String → Span → Evaluation Output}

/-- A congruent relation that holds between expansions and between imports holds between what two
meanings do with each construct. -/
lemma related (h : Congruent C)
    (hexpand : ∀ enclosing name args span,
      C (expandBy enclosing name args span) (expandBy' enclosing name args span))
    (himport : ∀ enclosing path span,
      C (importBy enclosing path span) (importBy' enclosing path span)) :
    Meaning.Related (fun _ => True) (.ofWays expandBy importBy) (.ofWays expandBy' importBy')
      fun _ x y => C x y where
  empty _ := h.pure Output.empty
  append hx hy := h.bind hx fun _ => h.bind hy fun _ => h.pure _
  assign _ := h.bind (h.assign _ _ _ _) fun _ => h.pure _
  ruleset _ hbody :=
    h.bind (h.selectorsOf _ _ _) fun selectors =>
      h.bind (h.within (hbody selectors)) fun _ => h.pure _
  declare _ := h.declare _ _ _ _ _
  mixin _ := h.bind (h.defineMixin _) fun _ => h.pure _
  expand _ := hexpand _ _ _ _
  importFile _ := himport _ _ _
  branch _ hyes hno := by
    refine h.bind (h.truthOf _) fun truth => ?_
    cases truth with
    | true => exact h.within hyes
    | false =>
      cases hno with
      | none => exact h.pure _
      | some hno => exact h.within hno
  expr _ := h.bind (h.valueOf _) fun _ => h.pure _

/-- A congruent relation that holds between expansions and between imports holds between the runs of
a statement. -/
lemma runBy (h : Congruent C)
    (hexpand : ∀ enclosing name args span,
      C (expandBy enclosing name args span) (expandBy' enclosing name args span))
    (himport : ∀ enclosing path span,
      C (importBy enclosing path span) (importBy' enclosing path span))
    (s : Stmt) (enclosing : Enclosing) :
    C (runBy expandBy importBy enclosing s) (runBy expandBy' importBy' enclosing s) :=
  (h.related hexpand himport).run Stmt.hereditary_true trivial enclosing

/-- The same of statements. -/
lemma runAllBy (h : Congruent C)
    (hexpand : ∀ enclosing name args span,
      C (expandBy enclosing name args span) (expandBy' enclosing name args span))
    (himport : ∀ enclosing path span,
      C (importBy enclosing path span) (importBy' enclosing path span))
    (statements : List Stmt) (enclosing : Enclosing) :
    C (runAllBy expandBy importBy enclosing statements)
      (runAllBy expandBy' importBy' enclosing statements) :=
  (h.related hexpand himport).runAll Stmt.hereditary_true (fun _ _ => trivial) enclosing

section Deeper

variable {setting : Setting} (deeper deeper' : Enclosing → List Stmt → Evaluation Output)

/-- Two evaluations of a statement are related if what they run deeper is. -/
lemma run (h : Congruent C)
    (hexpand : ∀ enclosing name args span,
      C (expand deeper enclosing name args span) (expand deeper' enclosing name args span))
    (himport : ∀ enclosing path span, C (importFile setting deeper enclosing path span)
      (importFile setting deeper' enclosing path span)) (s : Stmt) (enclosing : Enclosing) :
    C (run setting deeper enclosing s) (run setting deeper' enclosing s) := by
  rw [run_eq_runBy, run_eq_runBy]
  exact h.runBy hexpand himport s enclosing

/-- The same of statements. -/
lemma runAll (h : Congruent C)
    (hexpand : ∀ enclosing name args span,
      C (expand deeper enclosing name args span) (expand deeper' enclosing name args span))
    (himport : ∀ enclosing path span, C (importFile setting deeper enclosing path span)
      (importFile setting deeper' enclosing path span)) (statements : List Stmt)
    (enclosing : Enclosing) :
    C (runAll setting deeper enclosing statements)
      (runAll setting deeper' enclosing statements) := by
  rw [runAll_eq_runAllBy, runAll_eq_runAllBy]
  exact h.runAllBy hexpand himport statements enclosing

end Deeper

end Congruent

end Evaluation

end StyleSheet

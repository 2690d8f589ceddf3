import StyleSheet.Proofs.Stacks
import StyleSheet.Proofs.Trace

/-!
# Assignments stay in their scope

A statement that opens a scope, such as a ruleset, a branch or the expansion of a mixin, writes
into scopes that did not exist before it.  Of the older scopes only the global one can change, and
it changes only if the statement assigns with `!global` or imports a file.

Every write goes to the innermost scope of the stack or to the global one.  So a computation is
*confined* if it leaves all older scopes alone, with at most these two exceptions
(`State.Confined`), and a computation that runs in a new scope needs the first exception no longer
(`Confining.within`).
-/

namespace StyleSheet

/-- The event can change the global scope: it assigns there, or it begins the import of a file whose
statements are run there. -/
def Event.touchesGlobal : Event → Bool
  | .assigned _ isGlobal => isGlobal
  | .importBegun .. => true
  | _ => false

/-- Nothing in the trace can change the global scope. -/
def Trace.SparesGlobal (es : List Event) : Prop := ∀ e ∈ es, e.touchesGlobal = false

instance (es : List Event) : Decidable (Trace.SparesGlobal es) := by
  unfold Trace.SparesGlobal
  infer_instance

/-- The statement runs other statements in a scope of its own. -/
def Stmt.opensScope : Stmt → Bool
  | .ruleset .. | .branch .. | .expand .. => true
  | _ => false

open Trace

/-! ### Changes of one scope -/

namespace Environment

/-- The later environment has one more scope, which is the innermost one, and all older scopes are
as they were. -/
structure Entered (e e' : Environment) : Prop where
  stack : e'.stack = e.stack.enter e.scopes.size
  size_lt : e.scopes.size < e'.scopes.size
  kept : ∀ id < e.scopes.size, e'.scopes[id]? = e.scopes[id]?

/-- Entering a scope below any other one adds one scope and changes none. -/
lemma entered_pushIn (e : Environment) (parent : ScopeId) : e.Entered (e.pushIn parent) := by
  refine ⟨rfl, ?_, fun id hid => ?_⟩
  · simp [pushIn]
  · have hne : id ≠ e.scopes.size := Nat.ne_of_lt hid
    simp [pushIn, Array.getElem?_push, hne]

/-- A variable that is bound in the new scope leaves the older scopes as they were. -/
lemma Entered.define {e e' : Environment} (h : e.Entered e') (name : String) (v : Value) :
    e.Entered (e'.define name v) := by
  have hcurrent : e'.stack.current = e.scopes.size := by
    rw [h.stack, Stack.current_enter]
  refine ⟨h.stack, ?_, fun id hid => ?_⟩
  · simpa [Environment.define, Scopes.define] using h.size_lt
  · have hne : e.scopes.size ≠ id := Nat.ne_of_gt hid
    rw [← h.kept id hid]
    simp [Environment.define, Scopes.define, Array.getElem?_modify, hcurrent, hne]

/-- Binding parameters changes only the scope that was just entered. -/
lemma Entered.bindParams {e e' : Environment} (h : e.Entered e') (params : List String)
    (values : List Value) : e.Entered (Evaluation.bindParams params values e') := by
  unfold Evaluation.bindParams
  induction params.zip values generalizing e' with
  | nil => exact h
  | cons p rest ih => exact ih (h.define p.1 p.2)

end Environment

namespace Evaluation

/-- The later state has the stacks of the earlier one, and of the scopes that existed before only
two can have changed: the innermost one if the computation may write there on its `own` account,
and the global one if an event touches it. -/
structure State.Confined (own : Bool) (es : List Event) (s t : State) : Prop where
  sameStacks : s.SameStacks t
  size_le : s.env.scopes.size ≤ t.env.scopes.size
  kept : ∀ id < s.env.scopes.size, (own = true → id ≠ s.env.stack.current) →
    (id = s.env.stack.root → SparesGlobal es) → t.env.scopes[id]? = s.env.scopes[id]?

namespace State.Confined

variable {own : Bool} {es fs : List Event} {s t u : State}

/-- A state that did not change is confined. -/
lemma refl (own : Bool) (es : List Event) (s : State) : s.Confined own es s :=
  ⟨.refl s, Nat.le_refl _, fun _ _ _ _ => rfl⟩

/-- What may not write to the innermost scope is confined also where it may. -/
lemma weaken (h : s.Confined own es t) : s.Confined true es t :=
  ⟨h.sameStacks, h.size_le, fun id hid hown hroot => h.kept id hid (fun _ => hown rfl) hroot⟩

/-- Confinement carries over from one step to the next, and their events add up. -/
lemma trans (h : s.Confined own es t) (k : t.Confined own fs u) : s.Confined own (es ++ fs) u := by
  have hstack : t.env.stack = s.env.stack := h.sameStacks.1
  refine ⟨h.sameStacks.trans k.sameStacks, Nat.le_trans h.size_le k.size_le,
    fun id hid hown hroot => ?_⟩
  have hfirst : t.env.scopes[id]? = s.env.scopes[id]? := by
    refine h.kept id hid hown fun heq e he => ?_
    exact hroot heq e (List.mem_append_left fs he)
  have hsecond : u.env.scopes[id]? = t.env.scopes[id]? := by
    refine k.kept id (Nat.lt_of_lt_of_le hid h.size_le) ?_ ?_
    · rwa [hstack]
    · rw [hstack]
      exact fun heq e he => hroot heq e (List.mem_append_right es he)
  rw [hsecond, hfirst]

end State.Confined

namespace Traced

variable {α β : Type} {own : Bool}

/-- Every run is confined, whatever its outcome. -/
def Confining (own : Bool) (x : Traced Event α) : Prop :=
  ∀ ⦃s es o t⦄, x s = (es, o, t) → s.Confined own es t

/-- A computation that spares the innermost scope is confining also where it need not. -/
lemma Confining.weaken {x : Traced Event α} (hx : Confining own x) : Confining true x :=
  fun _ _ _ _ h => (hx h).weaken

/-- A computation without events is confining if each of its runs is confined. -/
lemma confining_silent {x : Evaluation α} (hx : ∀ s : State, s.Confined own [] (x s).2) :
    Confining own (silent x) := by
  intro s es o t h
  obtain ⟨rfl, hxs⟩ := silent_eq h
  have hs := hx s
  rwa [hxs] at hs

/-- A computation that only reads the state changes no scope. -/
lemma confining_silent_of_eq {x : Evaluation α} (hx : ∀ s, (x s).2 = s) :
    Confining own (silent x) := by
  refine confining_silent fun s => ?_
  rw [hx s]
  exact .refl own [] s

/-- A computation that does nothing is confining. -/
lemma confining_pure (a : α) : Confining own (pure a : Traced Event α) :=
  confining_silent_of_eq (x := pure a) fun _ => rfl

/-- Recording an event is confining. -/
lemma confining_emit (e : Event) : Confining own (emit e) := by
  intro s es o t h
  cases h
  exact .refl own [e] s

/-- Computations that follow one another are confining if both are. -/
lemma Confining.bind {x : Traced Event α} {f : α → Traced Event β} (hx : Confining own x)
    (hf : ∀ a, Confining own (f a)) : Confining own (x >>= f) := by
  intro s es o t h
  rcases bind_cases h with ⟨fs, a, u, gs, hxs, hfs, rfl⟩ | ⟨e, hxs, -⟩ | ⟨hxs, -⟩
  · exact (hx hxs).trans (hf a hfs)
  · exact hx hxs
  · exact hx hxs

/-- A choice is confining if both of its sides are. -/
lemma confining_ite {c : Prop} [Decidable c] {x y : Traced Event α} (hx : Confining own x)
    (hy : Confining own y) : Confining own (if c then x else y) :=
  iteInduction (fun _ => hx) fun _ => hy

/-- In a new scope a computation writes only there and into the global scope, so all scopes that
existed before it keep what they bind, apart from the global one. -/
lemma Confining.within {x : Traced Event α} (hx : Confining true x)
    {enter : Environment → Environment}
    (henter : ∀ e : Environment, e.Entered (enter e)) : Confining false (within enter x) := by
  intro s es o t h
  obtain ⟨u, hxs, rfl⟩ := within_eq h
  have hnew := henter s.env
  have hbody := hx hxs
  have hleft : u.env.stack.leave = s.env.stack := by
    rw [hbody.sameStacks.1, hnew.stack, Stack.leave_enter]
  have hsize : s.env.scopes.size ≤ u.env.scopes.size :=
    Nat.le_trans (Nat.le_of_lt hnew.size_lt) hbody.size_le
  refine ⟨⟨hleft, hbody.sameStacks.2⟩, hsize, fun id hid _ hroot => ?_⟩
  have hcurrent : id ≠ (enter s.env).stack.current := by
    rw [hnew.stack, Stack.current_enter]
    exact Nat.ne_of_lt hid
  have hsame : u.env.scopes[id]? = (enter s.env).scopes[id]? := by
    refine hbody.kept id (Nat.lt_trans hid hnew.size_lt) (fun _ => hcurrent) fun heq => hroot ?_
    rw [heq]
    change (enter s.env).stack.root = s.env.stack.root
    rw [hnew.stack]
    rfl
  rw [← hnew.kept id hid]
  exact hsame

/-- The statements of an imported file write into the global scope, and the record of the import
says so. -/
lemma Confining.imported {x : Traced Event α} (hx : Confining true x) (path : String)
    (sheet : Sheet)
    (span : Span) :
    Confining false (do
      emit (.importBegun path sheet)
      let out ← importing path span x
      emit .importEnded
      return out) := by
  intro s es o t h
  obtain ⟨es', o', hrun, hmem⟩ : ∃ es' o', importing path span x s = (es', o', t) ∧
      .importBegun path sheet ∈ es := by
    rcases bind_cases h with ⟨fs, _, u, gs, hemit, hrest, rfl⟩ | ⟨e, hemit, -⟩ | ⟨hemit, -⟩
    all_goals cases hemit
    rcases bind_cases hrest with ⟨fs, a, v, hs, hfile, hlast, rfl⟩ | ⟨e, hfile, -⟩ | ⟨hfile, -⟩
    · cases hlast
      exact ⟨fs, _, hfile, List.mem_cons_self⟩
    · exact ⟨gs, _, hfile, List.mem_cons_self⟩
    · exact ⟨gs, _, hfile, List.mem_cons_self⟩
  obtain ⟨o'', u, hxs, rfl⟩ := importing_eq hrun
  have hbody := hx hxs
  have hend : u.endImport = ⟨{ u.env with stack := s.env.stack }, s.pending⟩ := by
    have hpending : u.pending = ⟨path, s.env.stack⟩ :: s.pending := hbody.sameStacks.2
    unfold State.endImport
    rw [hpending]
  rw [hend]
  refine ⟨⟨rfl, rfl⟩, hbody.size_le, fun id hid _ hroot => ?_⟩
  have hne : id ≠ s.env.stack.root := by
    intro heq
    have hspared := hroot heq (.importBegun path sheet) hmem
    simp [Event.touchesGlobal] at hspared
  exact hbody.kept id hid (fun _ => hne) fun heq => absurd heq hne

/-! ### Statements -/

/-- An assignment writes into the innermost scope, or into the global one with a record of it. -/
lemma confining_assign (name : String) (value : Expr) (isGlobal isDefault : Bool) :
    Confining true (assign name value isGlobal isDefault) := by
  refine (confining_silent_of_eq fun _ => rfl).bind fun r => ?_
  refine confining_ite (confining_pure ()) ?_
  refine (confining_silent_of_eq (state_valueOf value)).bind fun v => ?_
  intro s es o t h
  cases h
  cases isGlobal with
  | true =>
    refine ⟨.refl s, ?_, fun id hid _ hroot => ?_⟩
    · simp [Environment.defineGlobal, Scopes.define]
    · have hne : s.env.stack.root ≠ id := by
        intro heq
        have hspared := hroot heq.symm (.assigned name true) List.mem_cons_self
        simp [Event.touchesGlobal] at hspared
      simp [Environment.defineGlobal, Scopes.define, Array.getElem?_modify, hne]
  | false =>
    refine ⟨.refl s, ?_, fun id hid hown _ => ?_⟩
    · simp [Environment.define, Scopes.define]
    · have hne : s.env.stack.current ≠ id := (hown rfl).symm
      simp [Environment.define, Scopes.define, Array.getElem?_modify, hne]

/-- A declaration binds nothing at all. -/
lemma confining_declare (enclosing : Enclosing) (property : Token) (values : List Expr)
    (important : Bool) (span : Span) :
    Confining own (declare enclosing property values important span) := by
  refine confining_ite (confining_silent_of_eq fun _ => rfl) ?_
  refine (confining_silent_of_eq (state_valuesOf values)).bind fun vs => ?_
  exact (confining_emit _).bind fun _ => confining_pure _

/-- A mixin is declared in the innermost scope. -/
lemma confining_defineMixin (m : Mixin) : Confining true (silent (change (·.defineMixin m))) := by
  refine confining_silent fun s => ⟨.refl s, ?_, fun id hid hown _ => ?_⟩
  · simp [change, Environment.defineMixin, Scopes.defineMixin]
  · have hne : s.env.stack.current ≠ id := (hown rfl).symm
    simp [change, Environment.defineMixin, Scopes.defineMixin, Array.getElem?_modify, hne]

section Deeper

variable {setting : Setting} {deeper : Enclosing → List Stmt → Traced Event Output}

/-- The expansion of a mixin writes to the scope that it opens, and to none that existed before on
its own account. -/
lemma confining_expand
    (hdeeper : ∀ enclosing statements, Confining true (deeper enclosing statements))
    (enclosing : Enclosing) (name : String) (args : List Expr) (span : Span) :
    Confining false (expand deeper enclosing name args span) := by
  refine (confining_silent_of_eq fun _ => rfl).bind fun s => ?_
  split
  · exact confining_silent_of_eq fun _ => rfl
  · rename_i b _
    refine confining_ite (confining_silent_of_eq fun _ => rfl) ?_
    refine (confining_silent_of_eq (state_valuesOf args)).bind fun values => ?_
    refine (confining_emit _).bind fun _ => ?_
    have hbody := (hdeeper enclosing b.mixin.body).within fun e =>
      (e.entered_pushIn b.home).bindParams b.mixin.params values
    exact hbody.bind fun out => (confining_emit _).bind fun _ => confining_pure out

/-- An import runs its file at the global scope, which its event shows, and spares the innermost
one. -/
lemma confining_importFile
    (hdeeper : ∀ enclosing statements, Confining true (deeper enclosing statements))
    (enclosing : Enclosing) (path : String) (span : Span) :
    Confining false (importFile setting deeper enclosing path span) := by
  refine (confining_silent_of_eq fun _ => rfl).bind fun s => ?_
  refine confining_ite (confining_silent_of_eq fun _ => rfl) ?_
  split
  · exact confining_silent_of_eq fun _ => rfl
  · rename_i sheet _
    exact (hdeeper enclosing sheet).imported path sheet span

/-- A ruleset writes into its own scope only. -/
lemma confining_ruleset {enclosing : Enclosing} {header : List Token} {span : Span}
    {x : List String → Traced Event Output} (hx : ∀ selectors, Confining true (x selectors)) :
    Confining false ((meaning setting deeper).ruleset enclosing header span x) := by
  refine (confining_silent_of_eq (state_selectorsOf enclosing header span)).bind fun selectors => ?_
  refine (confining_emit _).bind fun _ => ?_
  refine ((hx selectors).within fun e => e.entered_pushIn _).bind fun out => ?_
  exact (confining_emit _).bind fun _ => confining_pure _

/-- A branch writes into its own scope only. -/
lemma confining_branch {condition : Expr} {x : Traced Event Output}
    {y : Option (Traced Event Output)} (hx : Confining true x) (hy : ∀ z ∈ y, Confining true z) :
    Confining false ((meaning setting deeper).branch condition x y) := by
  refine (confining_silent_of_eq (state_truthOf condition)).bind fun truth => ?_
  refine confining_ite (hx.within fun e => e.entered_pushIn _) ?_
  cases y with
  | none => exact confining_pure _
  | some z => exact (hy z rfl).within fun e => e.entered_pushIn _

section Related

variable (hdeeper : ∀ enclosing statements, Confining true (deeper enclosing statements))

include hdeeper

/-- What the constructs of statements do is confined. -/
lemma related_confining : Meaning.Related (fun _ => True) (meaning setting deeper)
    (meaning setting deeper) fun _ x _ => Confining true x where
  empty _ := confining_pure _
  append hx hy := hx.bind fun _ => hy.bind fun _ => confining_pure _
  assign _ := (confining_assign _ _ _ _).bind fun _ => confining_pure _
  ruleset _ hbody := (confining_ruleset hbody).weaken
  declare _ := confining_declare _ _ _ _ _
  mixin _ := (confining_defineMixin _).bind fun _ => confining_pure _
  expand _ := (confining_expand hdeeper _ _ _ _).weaken
  importFile _ := (confining_importFile hdeeper _ _ _).weaken
  branch _ hyes hno := by
    refine (confining_branch hyes fun z hz => ?_).weaken
    cases hno with
    | none => cases hz
    | some hno =>
      obtain rfl := Option.mem_some.mp hz
      exact hno
  expr _ := (confining_silent_of_eq (state_valueOf _)).bind fun _ => confining_pure _

/-- Statements are confined if the bodies of mixins and the files that they run are. -/
lemma confining_runAll (statements : List Stmt) (enclosing : Enclosing) :
    Confining true (runAll setting deeper enclosing statements) :=
  (related_confining hdeeper).runAll Stmt.hereditary_true (fun _ _ => trivial) enclosing

/-- A statement that opens a scope does not write into the innermost one. -/
lemma confining_run {s : Stmt} (hs : s.opensScope = true) (enclosing : Enclosing) :
    Confining false (run setting deeper enclosing s) := by
  have hall : ∀ statements enclosing,
      Confining true ((meaning setting deeper).runAll enclosing statements) :=
    confining_runAll hdeeper
  unfold run
  cases s with
  | ruleset header rules children span =>
    unfold Meaning.run
    exact confining_ruleset fun selectors => (hall rules (some selectors)).bind fun _ =>
      (hall children (some selectors)).bind fun _ => confining_pure _
  | expand name args span =>
    unfold Meaning.run
    exact confining_expand hdeeper enclosing name args span
  | branch condition yes no span =>
    unfold Meaning.run
    refine confining_branch (hall yes.statements enclosing) fun z hz => ?_
    cases no with
    | none => cases hz
    | some b =>
      obtain rfl := Option.mem_some.mp hz
      exact hall b.statements enclosing
  | _ => cases hs

end Related

end Deeper

/-- By induction on the depth, statements write to the innermost scope and, where an event shows it,
to the global one. -/
lemma confining_runUpTo (setting : Setting) (depth : Nat) (enclosing : Enclosing)
    (statements : List Stmt) : Confining true (runUpTo setting depth enclosing statements) := by
  induction depth generalizing enclosing statements with
  | zero => exact confining_silent_of_eq fun _ => rfl
  | succ depth ih => exact confining_runAll ih statements enclosing

end Traced

/-- A statement that opens a scope leaves every scope that existed before it as it was, apart from
the global one, whatever its outcome.  If it neither assigns with `!global` nor imports a file, it
leaves the global scope as it was too. -/
theorem scopes_eq_of_opensScope (setting : Setting) (depth : Nat) (enclosing : Enclosing)
    (stmt : Stmt) (hstmt : stmt.opensScope = true) (s : State) :
    ∃ trace o t,
      Traced.run setting (Traced.runUpTo setting depth) enclosing stmt s = (trace, o, t) ∧
        run setting (runUpTo setting depth) enclosing stmt s = (o, t) ∧
        (∀ id < s.env.scopes.size, id ≠ s.env.stack.root →
          t.env.scopes[id]? = s.env.scopes[id]?) ∧
        (SparesGlobal trace → ∀ id < s.env.scopes.size,
          t.env.scopes[id]? = s.env.scopes[id]?) := by
  rcases htrace : Traced.run setting (Traced.runUpTo setting depth) enclosing stmt s with
    ⟨trace, o, t⟩
  have herase : (Traced.run setting (Traced.runUpTo setting depth) enclosing stmt).erase =
      run setting (runUpTo setting depth) enclosing stmt :=
    Traced.erase_run (Traced.erase_runUpTo setting depth) stmt enclosing
  have hrun : run setting (runUpTo setting depth) enclosing stmt s = (o, t) := by
    rw [← herase, Traced.erase, htrace]
  have hconfined : s.Confined false trace t :=
    Traced.confining_run (Traced.confining_runUpTo setting depth) hstmt enclosing htrace
  refine ⟨trace, o, t, rfl, hrun, fun id hid hne => ?_, fun hspares id hid => ?_⟩
  · exact hconfined.kept id hid (absurd · Bool.false_ne_true) fun heq => absurd heq hne
  · exact hconfined.kept id hid (absurd · Bool.false_ne_true) fun _ => hspares

/-- A setting in which no file can be imported. -/
def noFiles : Setting where
  load path := .error (.notFound path)
  keywords := .builtin

/-- `$a: body` -/
def shadowingBody : Stmt :=
  .assign ⟨"$a", .point 0⟩ (.text "body" (.point 0)) false false (.point 0)

/-- A global scope that binds `$a` and a mixin that assigns `$a`, and a scope above it that binds
`$a` as well. -/
def shadowingState : State :=
  ⟨((Environment.initial.define "$a" (.text "outer")).defineMixin
    ⟨"m", [], [shadowingBody]⟩).push.define "$a" (.text "inner"), []⟩

/-- `@if true{ $a: branch; @include m; &{} }` -/
def shadowingBranch : Stmt :=
  .branch (.bool true (.point 0))
    ⟨[.assign ⟨"$a", .point 0⟩ (.text "branch" (.point 0)) false false (.point 0),
      .expand "m" [] (.point 0),
      .ruleset [⟨.parentReference, "&", .point 0⟩] [] [] (.point 0)], .point 0⟩ none (.point 0)

/-- Outside every ruleset the branch assigns `$a` twice and then fails, and both older scopes keep
their `$a`. -/
theorem scopes_eq_of_opensScope_shadowingBranch :
    shadowingBranch.opensScope = true ∧ ∃ trace o t,
      Traced.run noFiles (Traced.runUpTo noFiles 2) none shadowingBranch shadowingState =
        (trace, o, t) ∧
      trace.countP (fun e => e matches .assigned ..) = 2 ∧ SparesGlobal trace ∧
      t.env.scopes[0]? = shadowingState.env.scopes[0]? ∧
      t.env.scopes[1]? = shadowingState.env.scopes[1]? := by
  obtain ⟨trace, o, t, htrace, -, -, hkept⟩ :=
    scopes_eq_of_opensScope noFiles 2 none shadowingBranch rfl shadowingState
  have hevents : trace = (Traced.run noFiles (Traced.runUpTo noFiles 2) none shadowingBranch
      shadowingState).1 := by rw [htrace]
  have hcount : trace.countP (fun e => e matches .assigned ..) = 2 := by
    rw [hevents]
    decide +kernel
  have hspares : SparesGlobal trace := by
    rw [hevents]
    decide +kernel
  exact ⟨rfl, trace, o, t, htrace, hcount, hspares, hkept hspares 0 (by decide),
    hkept hspares 1 (by decide)⟩

end Evaluation

end StyleSheet

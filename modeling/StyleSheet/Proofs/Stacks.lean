import StyleSheet.Proofs.Congruence
import StyleSheet.Session

/-!
# Stacks after a run

A run enters scopes and starts imports, and it can stop with an error at any point in between.
Every scope that it enters is left again, and every import that it starts is ended, so that the
stack of scopes and the imports under way are at the end what they were at the start, whatever the
outcome.

The argument follows the computations that a run is made of: a computation is *restoring* if it
leaves both stacks as it found them, and the two brackets `within` and `importing` around a
restoring computation are restoring again.
-/

namespace StyleSheet

namespace Evaluation

variable {α β : Type}

/-- The later state has the stack of scopes and the imports under way of the earlier one. -/
def State.SameStacks (s t : State) : Prop :=
  t.env.stack = s.env.stack ∧ t.pending = s.pending

/-- A state has its own stacks. -/
lemma State.SameStacks.refl (s : State) : s.SameStacks s := ⟨rfl, rfl⟩

/-- Having the same stacks is transitive. -/
lemma State.SameStacks.trans {s t u : State} (h : s.SameStacks t) (k : t.SameStacks u) :
    s.SameStacks u :=
  ⟨k.1.trans h.1, k.2.trans h.2⟩

/-- Leaves both stacks as they were, whatever the outcome. -/
def Restoring (x : Evaluation α) : Prop := ∀ s : State, s.SameStacks (x s).2

/-! ### Parts of a computation -/

/-- Doing nothing restores the stacks. -/
lemma restoring_pure (a : α) : Restoring (pure a : Evaluation α) := fun s => .refl s

/-- A failure restores the stacks. -/
lemma restoring_fail (fault : Fault) (span : Span) : Restoring (fail fault span : Evaluation α) :=
  fun s => .refl s

/-- A run that is too deep restores the stacks. -/
lemma restoring_tooDeep : Restoring (tooDeep : Evaluation α) := fun s => .refl s

/-- Asking for the state restores the stacks. -/
lemma restoring_state : Restoring state := fun s => .refl s

/-- A result that is known restores the stacks. -/
lemma restoring_ofExcept (r : Except EvalError α) : Restoring (ofExcept r) := by
  cases r with
  | ok a => exact restoring_pure a
  | error e => exact fun s => .refl s

/-- A restoring computation may be followed by another, which runs only after a success. -/
lemma Restoring.bind {x : Evaluation α} {f : α → Evaluation β} (hx : Restoring x)
    (hf : ∀ a, Restoring (f a)) : Restoring (x >>= f) := by
  intro s
  have h := hx s
  change s.SameStacks (Evaluation.bind x f s).2
  unfold Evaluation.bind
  rcases hxs : x s with ⟨_ | _ | _, t⟩
  all_goals rw [hxs] at h
  · exact h.trans (hf _ t)
  · exact h
  · exact h

/-- A choice restores the stacks if both of its sides do. -/
lemma restoring_ite {c : Prop} [Decidable c] {x y : Evaluation α} (hx : Restoring x)
    (hy : Restoring y) : Restoring (if c then x else y) :=
  iteInduction (fun _ => hx) fun _ => hy

/-- A change of the scopes alone restores the stacks. -/
lemma restoring_change {f : Environment → Environment} (hf : ∀ e, (f e).stack = e.stack) :
    Restoring (change f) :=
  fun s => ⟨hf s.env, rfl⟩

/-- A scope that is entered for a restoring computation is the one that is left after it. -/
lemma Restoring.within {enter : Environment → Environment} {x : Evaluation α} (hx : Restoring x)
    (henter : ∀ e, (enter e).stack.leave = e.stack) : Restoring (within enter x) := by
  intro s
  have h := hx { s with env := enter s.env }
  refine ⟨?_, h.2⟩
  change Stack.leave (x { s with env := enter s.env }).2.env.stack = s.env.stack
  rw [h.1]
  exact henter s.env

/-- The end of an import takes up the stack that its start has put aside. -/
lemma Restoring.endImport_eq {x : Evaluation α} (hx : Restoring x) {path : String} {s t : State}
    {o : Outcome α} (h : x (s.beginImport path) = (o, t)) :
    t.endImport = ⟨{ t.env with stack := s.env.stack }, s.pending⟩ := by
  have hrestored := hx (s.beginImport path)
  rw [h] at hrestored
  have hpending : t.pending = ⟨path, s.env.stack⟩ :: s.pending := hrestored.2
  rw [State.endImport, hpending]

/-- An import restores the stacks if the run of its file does, whatever its outcome. -/
lemma Restoring.importing {x : Evaluation α} (hx : Restoring x) (path : String) (span : Span) :
    Restoring (importing path span x) := by
  intro s
  unfold Evaluation.importing
  rcases hxs : x (s.beginImport path) with ⟨_ | _ | _, t⟩
  all_goals
    simp only [hx.endImport_eq hxs]
    exact ⟨rfl, rfl⟩

/-! ### Parts that only read the state -/

/-- A result that is known changes nothing. -/
lemma state_ofExcept (r : Except EvalError α) (s : State) : (ofExcept r s).2 = s := by
  cases r <;> rfl

/-- The value of an expression changes nothing. -/
lemma state_valueOf (e : Expr) (s : State) : (valueOf e s).2 = s := state_ofExcept _ s

/-- The values of expressions change nothing. -/
lemma state_valuesOf (es : List Expr) (s : State) : (valuesOf es s).2 = s := state_ofExcept _ s

/-- The selectors of a ruleset change nothing. -/
lemma state_selectorsOf (enclosing : Enclosing) (header : List Token) (span : Span) (s : State) :
    (selectorsOf enclosing header span s).2 = s := by
  unfold selectorsOf
  cases Selector.compose enclosing header <;> rfl

/-- The truth of a condition changes nothing. -/
lemma state_truthOf (condition : Expr) (s : State) : (truthOf condition s).2 = s := by
  change (Evaluation.bind (valueOf condition) _ s).2 = s
  unfold Evaluation.bind
  have hvalue := state_valueOf condition s
  rcases hs : valueOf condition s with ⟨v | e | _, u⟩
  all_goals
    rw [hs] at hvalue
    obtain rfl : u = s := hvalue
  · cases v <;> rfl
  · rfl
  · rfl

/-! ### Statements -/

/-- The value of an expression restores the stacks. -/
lemma restoring_valueOf (e : Expr) : Restoring (valueOf e) :=
  restoring_state.bind fun _ => restoring_ofExcept _

/-- The values of expressions restore the stacks. -/
lemma restoring_valuesOf (es : List Expr) : Restoring (valuesOf es) :=
  restoring_state.bind fun _ => restoring_ofExcept _

/-- An assignment restores the stacks. -/
lemma restoring_assign (name : String) (value : Expr) (isGlobal isDefault : Bool) :
    Restoring (assign name value isGlobal isDefault) := by
  refine restoring_state.bind fun s => restoring_ite (restoring_pure ()) ?_
  refine (restoring_valueOf value).bind fun v => restoring_change fun e => ?_
  cases isGlobal <;> rfl

/-- The selectors of a ruleset restore the stacks. -/
lemma restoring_selectorsOf (enclosing : Enclosing) (header : List Token) (span : Span) :
    Restoring (selectorsOf enclosing header span) := by
  unfold selectorsOf
  split
  · exact restoring_pure _
  · exact restoring_fail _ _

/-- A declaration restores the stacks. -/
lemma restoring_declare (enclosing : Enclosing) (property : Token) (values : List Expr)
    (important : Bool) (span : Span) :
    Restoring (declare enclosing property values important span) := by
  unfold declare
  split
  · exact restoring_fail _ _
  · exact (restoring_valuesOf values).bind fun _ => restoring_pure _

/-- The truth of a condition restores the stacks. -/
lemma restoring_truthOf (condition : Expr) : Restoring (truthOf condition) := by
  refine (restoring_valueOf condition).bind fun v => ?_
  split
  · exact restoring_pure _
  · exact restoring_fail _ _

/-- Binding parameters does not touch the stack. -/
lemma stack_bindParams (params : List String) (values : List Value) (env : Environment) :
    (bindParams params values env).stack = env.stack := by
  unfold bindParams
  induction params.zip values generalizing env with
  | nil => rfl
  | cons p rest ih => exact ih (env.define p.1 p.2)

section Statements

variable {setting : Setting} {deeper : Enclosing → List Stmt → Evaluation Output}

/-- The expansion of a mixin restores the stacks if the run of its body does. -/
lemma restoring_expand (hdeeper : ∀ enclosing statements, Restoring (deeper enclosing statements))
    (enclosing : Enclosing) (name : String) (args : List Expr) (span : Span) :
    Restoring (expand deeper enclosing name args span) := by
  refine restoring_state.bind fun s => ?_
  split
  · exact restoring_fail _ _
  · rename_i b _
    refine restoring_ite (restoring_fail _ _) ((restoring_valuesOf args).bind fun values => ?_)
    refine (hdeeper enclosing b.mixin.body).within fun e => ?_
    rw [stack_bindParams]
    rfl

/-- An import of a file restores the stacks if the run of its statements does. -/
lemma restoring_importFile
    (hdeeper : ∀ enclosing statements, Restoring (deeper enclosing statements))
    (enclosing : Enclosing) (path : String) (span : Span) :
    Restoring (importFile setting deeper enclosing path span) := by
  refine restoring_state.bind fun s => restoring_ite (restoring_fail _ _) ?_
  split
  · exact restoring_fail _ _
  · exact (hdeeper enclosing _).importing path span

/-- All ways to put statements together restore the stacks. -/
lemma congruent_restoring : Congruent fun _ x _ => Restoring x where
  pure _ := restoring_pure
  bind _ _ _ _ _ _ hx hf := hx.bind hf
  within _ _ hx := hx.within fun _ => rfl
  valueOf := restoring_valueOf
  truthOf := restoring_truthOf
  selectorsOf := restoring_selectorsOf
  declare := restoring_declare
  assign := restoring_assign
  defineMixin _ := restoring_change fun _ => rfl

/-- One statement is restoring if the bodies of mixins and the imported files that it runs are. -/
lemma restoring_run (hdeeper : ∀ enclosing statements, Restoring (deeper enclosing statements))
    (s : Stmt) (enclosing : Enclosing) : Restoring (run setting deeper enclosing s) :=
  congruent_restoring.run deeper deeper (restoring_expand hdeeper) (restoring_importFile hdeeper) s
    enclosing

/-- Runs of statements restore the stacks if the deeper runs do. -/
lemma restoring_runAll (hdeeper : ∀ enclosing statements, Restoring (deeper enclosing statements))
    (statements : List Stmt) (enclosing : Enclosing) :
    Restoring (runAll setting deeper enclosing statements) :=
  congruent_restoring.runAll deeper deeper (restoring_expand hdeeper)
    (restoring_importFile hdeeper) statements enclosing

end Statements

/-- By induction on the depth, runs of statements restore the stacks. -/
lemma restoring_runUpTo (setting : Setting) (depth : Nat) (enclosing : Enclosing)
    (statements : List Stmt) : Restoring (runUpTo setting depth enclosing statements) := by
  induction depth generalizing enclosing statements with
  | zero => exact restoring_tooDeep
  | succ depth ih => exact restoring_runAll ih statements enclosing

/-- The run of a statement at the top restores the stacks. -/
lemma restoring_runTop (setting : Setting) (s : Stmt) : Restoring (runTop setting s) :=
  restoring_run (restoring_runUpTo setting setting.maxDepth) s none

end Evaluation

namespace Session

/-- A statement of a session restores the stacks. -/
lemma sameStacks_statement (s : Session) (setting : Setting) (stmt : Stmt) :
    s.state.SameStacks (s.statement setting stmt).2.state := by
  have h := Evaluation.restoring_runTop setting stmt s.state
  unfold statement
  split
  · split <;> exact .refl _
  · split
    all_goals
      rename_i hrun
      rw [hrun] at h
      exact h

/-- Statements and whole programs restore the stack of scopes, with its global scope and its
innermost one, and the imports under way, whatever their outcome. -/
theorem stacks_restored (s : Session) (setting : Setting) :
    (∀ stmt, s.state.SameStacks (s.statement setting stmt).2.state) ∧
      ∀ sheet, s.state.SameStacks (s.program setting sheet).2.state := by
  refine ⟨sameStacks_statement s setting, fun sheet => ?_⟩
  -- The session changes from statement to statement, so the induction runs over all of them.
  induction sheet generalizing s with
  | nil => exact .refl _
  | cons stmt rest ih =>
    have h := sameStacks_statement s setting stmt
    unfold program
    split
    all_goals
      rename_i hstmt
      rw [hstmt] at h
    · exact h.trans (ih _)
    · exact h
    · exact h

end Session

end StyleSheet

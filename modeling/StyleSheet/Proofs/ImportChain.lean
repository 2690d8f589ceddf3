import StyleSheet.Proofs.Imports

/-!
# The imports around an error

An error that comes out of imported files is marked with each import on its way.  These marks are
the imports that were under way where it was raised (`Session.imports_eq_pending_of_failed`).

When a run has failed, its imports have been ended, so its last state does not show them any more.
`haltUpTo` is the same run without that: an error leaves the imports under way.  It is compared with
the run itself construct by construct (`Halts`).
-/

namespace StyleSheet

namespace EvalError

/-- The error inside all imports. -/
def rootCause : EvalError → EvalError
  | raised fault span => raised fault span
  | inImport _ cause _ => cause.rootCause

/-- The root cause of an error has the fault of the error. -/
lemma fault_rootCause (e : EvalError) : e.rootCause.fault = e.fault := by
  induction e with
  | raised fault span => rfl
  | inImport path cause span ih => exact ih

end EvalError

/-- Whether a fault is that of a file that is imported while it is being imported. -/
def Fault.isImportCycle : Fault → Bool
  | importCycle _ => true
  | _ => false

/-- A fault of arithmetic is no cycle of imports. -/
lemma Fault.isImportCycle_ofArithmetic (e : Value.ArithmeticError) :
    (ofArithmetic e).isImportCycle = false := by
  cases e <;> rfl

/-- The error is marked with no import and is no cycle of imports, as those of expressions are. -/
def EvalError.IsBare (e : EvalError) : Prop := e.imports = [] ∧ e.fault.isImportCycle = false

namespace Expr

/-- An error of arithmetic is bare. -/
lemma isBare_of_located {span : Span} {r : Except Value.ArithmeticError Value} {e : EvalError}
    (h : located span r = .error e) : e.IsBare := by
  cases r with
  | ok v => cases h
  | error fault =>
    cases h
    exact ⟨rfl, Fault.isImportCycle_ofArithmetic fault⟩

/-- By induction on the expression, the error of a value is bare. -/
lemma isBare_of_value {lookup : String → Option Value} {e : Expr} {err : EvalError}
    (h : e.value lookup = .error err) : err.IsBare := by
  induction e generalizing err with
  | var name span =>
    rw [value] at h
    split at h
    · cases h
    · cases h
      exact ⟨rfl, rfl⟩
  | negate operand span ih =>
    rw [value] at h
    rcases bind_eq_error h with hoperand | ⟨v, -, hv⟩
    · exact ih hoperand
    · exact isBare_of_located hv
  | binary op left right span ihleft ihright =>
    rw [value] at h
    rcases bind_eq_error h with hleft | ⟨x, -, hrest⟩
    · exact ihleft hleft
    · rcases bind_eq_error hrest with hright | ⟨y, -, hxy⟩
      · exact ihright hright
      · exact isBare_of_located hxy
  | _ => cases h

/-- The error of values is bare. -/
lemma isBare_of_values {lookup : String → Option Value} {es : List Expr} {err : EvalError}
    (h : values lookup es = .error err) : err.IsBare := by
  induction es with
  | nil => cases h
  | cons e es ih =>
    rw [values] at h
    rcases bind_eq_error h with hfirst | ⟨v, -, hrest⟩
    · exact isBare_of_value hfirst
    · rcases bind_eq_error hrest with hothers | ⟨vs, -, hret⟩
      · exact ih hothers
      · cases hret

end Expr

namespace Evaluation

variable {α β : Type}

/-! ### Runs that halt where an error is raised -/

/-- As `importing`, but an error leaves the import under way. -/
def haltImporting (path : String) (span : Span) (x : Evaluation α) : Evaluation α := fun s =>
  match x (s.beginImport path) with
  | (.failed e, t) => (.failed (.inImport path e span), t)
  | (outcome, t) => (outcome, t.endImport)

/-- As `importFile`, but an error in the file leaves the import under way. -/
def haltImportFile (setting : Setting) (deeper : Enclosing → List Stmt → Evaluation Output)
    (enclosing : Enclosing) (path : String) (span : Span) : Evaluation Output := do
  if (← state).isImporting path then fail (.importCycle path) span
  else
    match importedSheet setting path with
    | .error fault => fail fault span
    | .ok sheet => haltImporting path span (deeper enclosing sheet)

/-- As `runUpTo`, but an error leaves the imports under way that are so where it is raised. -/
def haltUpTo (setting : Setting) : Nat → Enclosing → List Stmt → Evaluation Output
  | 0, _, _ => tooDeep
  | depth + 1, enclosing, statements =>
    runAllBy (expand (haltUpTo setting depth)) (haltImportFile setting (haltUpTo setting depth))
      enclosing statements

/-- An error of a run from the first state that is raised in the second.  It is marked with the
imports that were started in between, innermost last, and if it is a cycle of imports then its file
is being imported. -/
structure State.Marks (s : State) (e : EvalError) (u : State) : Prop where
  paths : u.paths = e.imports.reverse ++ s.paths
  nodup : s.paths.Nodup → u.paths.Nodup
  cycle : ∀ path, e.fault = .importCycle path → path ∈ u.paths

namespace State.Marks

variable {s t u : State} {e : EvalError}

/-- A bare error is raised where it is found, with no import in between. -/
lemma of_isBare (h : e.IsBare) (s : State) : s.Marks e s where
  paths := by rw [h.1, List.reverse_nil, List.nil_append]
  nodup := id
  cycle path hpath := by
    have hbare := h.2
    rw [hpath] at hbare
    cases hbare

/-- What comes before does not matter if it leaves the imports as they were. -/
lemma of_paths_eq (h : t.Marks e u) (hpaths : t.paths = s.paths) : s.Marks e u where
  paths := by rw [h.paths, hpaths]
  nodup hs := h.nodup (by rw [hpaths]; exact hs)
  cycle := h.cycle

/-- An import is the outermost mark of the errors that come out of it. -/
lemma inImport {path : String} (h : (s.beginImport path).Marks e u)
    (hpath : s.isImporting path = false) (span : Span) : s.Marks (.inImport path e span) u where
  paths := by
    have hbegun : (s.beginImport path).paths = path :: s.paths := rfl
    rw [h.paths, hbegun, EvalError.imports, List.reverse_cons, List.append_assoc,
      List.singleton_append]
  nodup hs := by
    have hnew : path ∉ s.paths := by
      rw [← State.isImporting_iff, hpath]
      exact Bool.false_ne_true
    exact h.nodup (List.nodup_cons.mpr ⟨hnew, hs⟩)
  cycle := h.cycle

end State.Marks

/-- The second computation does as the first, up to an error.  It halts where the error is raised,
which is marked with the imports under way there. -/
structure Halts (x y : Evaluation α) : Prop where
  restoring : Restoring x
  eq : ∀ ⦃s⦄, (∀ e, (x s).1 ≠ .failed e) → y s = x s
  failed : ∀ ⦃s e t⦄, x s = (.failed e, t) → ∃ u, y s = (.failed e, u) ∧ s.Marks e u

/-- A success is the same for both. -/
lemma Halts.of_ok {x y : Evaluation α} (h : Halts x y) {s t : State} {a : α}
    (hx : x s = (.ok a, t)) : y s = (.ok a, t) := by
  rw [h.eq, hx]
  intro e
  rw [hx]
  exact nofun

/-- A run that is too deep is so for both. -/
lemma Halts.of_tooDeep {x y : Evaluation α} (h : Halts x y) {s t : State}
    (hx : x s = (.tooDeep, t)) : y s = (.tooDeep, t) := by
  rw [h.eq, hx]
  intro e
  rw [hx]
  exact nofun

/-- Doing nothing halts nowhere. -/
lemma halts_pure (a : α) : Halts (pure a : Evaluation α) (pure a) :=
  ⟨restoring_pure a, fun _ _ => rfl, nofun⟩

/-- Asking for the state halts nowhere. -/
lemma halts_state : Halts state state := ⟨restoring_state, fun _ _ => rfl, nofun⟩

/-- A run that is too deep halts at once. -/
lemma halts_tooDeep : Halts (tooDeep : Evaluation α) tooDeep :=
  ⟨restoring_tooDeep, fun _ _ => rfl, nofun⟩

/-- A change of the scopes halts nowhere. -/
lemma halts_change {f : Environment → Environment} (hf : ∀ e, (f e).stack = e.stack) :
    Halts (change f) (change f) :=
  ⟨restoring_change hf, fun _ _ => rfl, nofun⟩

/-- A bare error halts where it is raised. -/
lemma halts_ofExcept {r : Except EvalError α} (hr : ∀ e, r = .error e → e.IsBare) :
    Halts (ofExcept r) (ofExcept r) := by
  refine ⟨restoring_ofExcept r, fun _ _ => rfl, fun s e t h => ?_⟩
  cases r with
  | ok a => cases h
  | error e =>
    cases h
    exact ⟨s, rfl, .of_isBare (hr e rfl) s⟩

/-- A failure other than a cycle halts where it is raised. -/
lemma halts_fail {fault : Fault} (hfault : fault.isImportCycle = false) (span : Span) :
    Halts (fail fault span : Evaluation α) (fail fault span) := by
  refine ⟨restoring_fail fault span, fun _ _ => rfl, fun s e t h => ?_⟩
  cases h
  have hbare : (EvalError.raised fault span).IsBare := ⟨rfl, hfault⟩
  exact ⟨s, rfl, .of_isBare hbare s⟩

/-- Of computations that follow one another, the first error halts. -/
lemma Halts.bind {x y : Evaluation α} {f g : α → Evaluation β} (hx : Halts x y)
    (hf : ∀ a, Halts (f a) (g a)) : Halts (x >>= f) (y >>= g) := by
  refine ⟨hx.restoring.bind fun a => (hf a).restoring, fun s hs => ?_, fun s e t h => ?_⟩
  · change ∀ e, (Evaluation.bind x f s).1 ≠ .failed e at hs
    change Evaluation.bind y g s = Evaluation.bind x f s
    unfold Evaluation.bind at hs ⊢
    rcases hxs : x s with ⟨a | e | _, t⟩
    all_goals rw [hxs] at hs
    · rw [hx.of_ok hxs]
      exact (hf a).eq hs
    · exact absurd rfl (hs e)
    · rw [hx.of_tooDeep hxs]
  · change Evaluation.bind x f s = _ at h
    change ∃ u, Evaluation.bind y g s = _ ∧ _
    unfold Evaluation.bind at h ⊢
    rcases hxs : x s with ⟨a | e' | _, v⟩
    all_goals rw [hxs] at h
    · obtain ⟨u, hu, hmarks⟩ := (hf a).failed h
      rw [hx.of_ok hxs]
      exact ⟨u, hu, hmarks.of_paths_eq (hx.restoring.paths_eq hxs)⟩
    · cases h
      obtain ⟨u, hu, hmarks⟩ := hx.failed hxs
      rw [hu]
      exact ⟨u, rfl, hmarks⟩
    · cases h

/-- A choice halts as its sides do. -/
lemma halts_ite {c : Prop} [Decidable c] {x y x' y' : Evaluation α} (hx : Halts x x')
    (hy : Halts y y') : Halts (if c then x else y) (if c then x' else y') := by
  by_cases h : c
  · rw [if_pos h, if_pos h]
    exact hx
  · rw [if_neg h, if_neg h]
    exact hy

/-- Scopes have nothing to do with imports. -/
lemma Halts.within {x y : Evaluation α} (hx : Halts x y) {enter : Environment → Environment}
    (henter : ∀ e, (enter e).stack.leave = e.stack) : Halts (within enter x) (within enter y) := by
  refine ⟨hx.restoring.within henter, fun s hs => ?_, fun s e t h => ?_⟩
  · have hxs := hx.eq hs
    rw [Evaluation.within, Evaluation.within, hxs]
  · unfold Evaluation.within at h ⊢
    rcases hxs : x { s with env := enter s.env } with ⟨o, v⟩
    rw [hxs] at h
    cases h
    obtain ⟨u, hu, hmarks⟩ := hx.failed hxs
    rw [hu]
    exact ⟨{ u with env := u.env.pop }, rfl, hmarks.paths, hmarks.nodup, hmarks.cycle⟩

/-- An import that is not under way yet, and is left under way by an error. -/
lemma Halts.importing {x y : Evaluation α} (hx : Halts x y) {path : String} {s : State}
    (hpath : s.isImporting path = false) (span : Span) :
    ((∀ e, (importing path span x s).1 ≠ .failed e) →
      haltImporting path span y s = importing path span x s) ∧
    ∀ e t, importing path span x s = (.failed e, t) →
      ∃ u, haltImporting path span y s = (.failed e, u) ∧ s.Marks e u := by
  unfold haltImporting Evaluation.importing
  rcases hxs : x (s.beginImport path) with ⟨a | e | _, v⟩
  · rw [hx.of_ok hxs]
    exact ⟨fun _ => rfl, nofun⟩
  · obtain ⟨u, hu, hmarks⟩ := hx.failed hxs
    rw [hu]
    refine ⟨fun hne => absurd rfl (hne _), fun e' t h => ?_⟩
    cases h
    exact ⟨u, rfl, hmarks.inImport hpath span⟩
  · rw [hx.of_tooDeep hxs]
    exact ⟨fun _ => rfl, nofun⟩

/-! ### Statements -/

/-- An expression halts with its error. -/
lemma halts_valueOf (e : Expr) : Halts (valueOf e) (valueOf e) :=
  halts_state.bind fun _ => halts_ofExcept fun _ => Expr.isBare_of_value

/-- Expressions halt with their error. -/
lemma halts_valuesOf (es : List Expr) : Halts (valuesOf es) (valuesOf es) :=
  halts_state.bind fun _ => halts_ofExcept fun _ => Expr.isBare_of_values

/-- A condition halts with its error. -/
lemma halts_truthOf (condition : Expr) : Halts (truthOf condition) (truthOf condition) := by
  refine (halts_valueOf condition).bind fun v => ?_
  split
  · exact halts_pure _
  · exact halts_fail rfl _

/-- The selectors of a ruleset halt with their error. -/
lemma halts_selectorsOf (enclosing : Enclosing) (header : List Token) (span : Span) :
    Halts (selectorsOf enclosing header span) (selectorsOf enclosing header span) := by
  unfold selectorsOf
  split
  · exact halts_pure _
  · exact halts_fail rfl _

/-- An assignment halts with the error of its value. -/
lemma halts_assign (name : String) (value : Expr) (isGlobal isDefault : Bool) :
    Halts (assign name value isGlobal isDefault) (assign name value isGlobal isDefault) := by
  refine halts_state.bind fun s => halts_ite (halts_pure ()) ?_
  refine (halts_valueOf value).bind fun v => halts_change fun e => ?_
  cases isGlobal <;> rfl

/-- All ways to put statements together keep where errors halt. -/
lemma congruent_halts : Congruent fun _ x y => Halts x y where
  pure _ := halts_pure
  bind _ _ _ _ _ _ hx hf := hx.bind hf
  within _ _ hx := hx.within fun _ => rfl
  valueOf := halts_valueOf
  truthOf := halts_truthOf
  selectorsOf := halts_selectorsOf
  declare _ _ values _ _ :=
    halts_ite (halts_fail rfl _) ((halts_valuesOf values).bind fun _ => halts_pure _)
  assign := halts_assign
  defineMixin _ := halts_change fun _ => rfl

section Deeper

variable {setting : Setting} {deeper deeper' : Enclosing → List Stmt → Evaluation Output}

/-- The expansion of a mixin halts as the run of its body does. -/
lemma halts_expand
    (hdeeper : ∀ enclosing statements, Halts (deeper enclosing statements)
      (deeper' enclosing statements))
    (enclosing : Enclosing) (name : String) (args : List Expr) (span : Span) :
    Halts (expand deeper enclosing name args span) (expand deeper' enclosing name args span) := by
  refine halts_state.bind fun s => ?_
  cases (s.env.lookupMixin name).filter fun b => s.isAlive b.home with
  | none => exact halts_fail rfl span
  | some b =>
    refine halts_ite (halts_fail rfl span) ((halts_valuesOf args).bind fun values => ?_)
    refine (hdeeper enclosing b.mixin.body).within fun e => ?_
    rw [stack_bindParams]
    rfl

/-- What is wrong with a file is no cycle of imports. -/
lemma isImportCycle_of_importedSheet {path : String} {fault : Fault}
    (h : importedSheet setting path = .error fault) : fault.isImportCycle = false := by
  unfold importedSheet at h
  split at h
  · cases h
    rfl
  · split at h
    · cases h
      rfl
    · cases h

/-- The three ways of an import: a cycle, whose file is under way, no sheet, or a run of the
sheet. -/
lemma halts_importFile
    (hdeeper : ∀ enclosing statements, Halts (deeper enclosing statements)
      (deeper' enclosing statements))
    (enclosing : Enclosing) (path : String) (span : Span) :
    Halts (importFile setting deeper enclosing path span)
      (haltImportFile setting deeper' enclosing path span) := by
  have himport : ∀ s : State,
      ((∀ e, (importFile setting deeper enclosing path span s).1 ≠ .failed e) →
        haltImportFile setting deeper' enclosing path span s =
          importFile setting deeper enclosing path span s) ∧
      ∀ e t, importFile setting deeper enclosing path span s = (.failed e, t) →
        ∃ u, haltImportFile setting deeper' enclosing path span s = (.failed e, u) ∧
          s.Marks e u := by
    intro s
    simp only [importFile, haltImportFile, Bind.bind, Evaluation.bind, state]
    cases hpath : s.isImporting path with
    | true =>
      refine ⟨fun _ => rfl, fun e t h => ?_⟩
      cases h
      -- the error is raised before the import begins, so its file is one of those under way
      refine ⟨s, rfl, rfl, id, fun path' hcycle => ?_⟩
      cases hcycle
      exact State.isImporting_iff.mp hpath
    | false =>
      cases hsheet : importedSheet setting path with
      | error fault =>
        have hfault := halts_fail (α := Output) (isImportCycle_of_importedSheet hsheet) span
        exact ⟨fun _ => rfl, fun e t h => hfault.failed h⟩
      | ok sheet => exact (hdeeper enclosing sheet).importing hpath span
  have hrestoring := fun enclosing statements => (hdeeper enclosing statements).restoring
  exact ⟨restoring_importFile hrestoring enclosing path span, fun s => (himport s).1,
    fun s => (himport s).2⟩

end Deeper

/-- By induction on the depth, runs of statements halt where their error is raised. -/
lemma halts_runUpTo (setting : Setting) (depth : Nat) (enclosing : Enclosing)
    (statements : List Stmt) :
    Halts (runUpTo setting depth enclosing statements)
      (haltUpTo setting depth enclosing statements) := by
  induction depth generalizing enclosing statements with
  | zero => exact halts_tooDeep
  | succ depth ih =>
    rw [runUpTo, haltUpTo, runAll_eq_runAllBy]
    exact congruent_halts.runAllBy (halts_expand ih) (halts_importFile ih) statements enclosing

end Evaluation

namespace Session

open Evaluation

/-- The run of a program, halted where an error is raised. -/
def halted (s : Session) (setting : Setting) (sheet : Sheet) : Outcome Output × State :=
  haltUpTo setting (setting.maxDepth + 1) none sheet s.state

/-- A program that fails does so in a run of its statements. -/
lemma runUpTo_of_program_eq_failed {s : Session} {setting : Setting} {sheet : Sheet} {e : EvalError}
    (h : (s.program setting sheet).1 = .failed e) :
    ∃ t, runUpTo setting (setting.maxDepth + 1) none sheet s.state = (.failed e, t) := by
  rw [program_eq_conclude_runAll] at h
  rw [runUpTo]
  rcases hrun : runAll setting (runUpTo setting setting.maxDepth) none sheet s.state with
    ⟨out | e' | _, t⟩
  all_goals
    rw [hrun] at h
    cases h
  exact ⟨t, rfl⟩

/-- A program that fails, started while nothing is being imported, fails with the same error if it
is halted where the error is raised.  The imports that the error is marked with, outermost first,
are those under way there, so they are different from each other.  The error has the code of its
root cause, and if that is a cycle of imports then its file is among them. -/
theorem imports_eq_pending_of_failed (s : Session) (setting : Setting) (sheet : Sheet)
    (e : EvalError) (hs : s.state.pending = [])
    (h : (s.program setting sheet).1 = .failed e) :
    ∃ u : State, s.halted setting sheet = (.failed e, u) ∧
      e.imports = (u.pending.map Pending.path).reverse ∧ e.imports.Nodup ∧
      e.code = e.rootCause.code ∧
      ∀ path span, e.rootCause = .raised (.importCycle path) span → path ∈ e.imports := by
  obtain ⟨t, ht⟩ := runUpTo_of_program_eq_failed h
  obtain ⟨u, hu, hmarks⟩ := (halts_runUpTo setting _ none sheet).failed ht
  have hstart : s.state.paths = [] := congrArg (List.map Pending.path) hs
  have hpaths : u.paths = e.imports.reverse := by rw [hmarks.paths, hstart, List.append_nil]
  have himports : e.imports = u.paths.reverse := by rw [hpaths, List.reverse_reverse]
  have hnodup : u.paths.Nodup := hmarks.nodup (by rw [hstart]; exact List.nodup_nil)
  refine ⟨u, hu, himports, ?_, ?_, ?_⟩
  · rw [himports]
    exact List.nodup_reverse.mpr hnodup
  · rw [EvalError.code, EvalError.code, EvalError.fault_rootCause]
  · intro path span hcause
    have hfault : e.fault = .importCycle path := by
      rw [← EvalError.fault_rootCause, hcause, EvalError.fault]
    rw [himports, List.mem_reverse]
    exact hmarks.cycle path hfault

/-- The last of three files closes a cycle when it is read for the second time. -/
theorem imports_eq_pending_of_failed_diamondSheet :
    ∃ e u, (initial.program ⟨.ofTable diamondFiles, .builtin, 4⟩ diamondSheet).1 = .failed e ∧
      initial.halted ⟨.ofTable diamondFiles, .builtin, 4⟩ diamondSheet = (.failed e, u) ∧
      u.pending.map Pending.path = ["d", "c", "a"] ∧ e.imports = ["a", "c", "d"] ∧
      e.imports.Nodup ∧ e.rootCause = .raised (.importCycle "a") ⟨17, 28⟩ ∧ "a" ∈ e.imports := by
  let e : EvalError := .inImport "a" (.inImport "c" (.inImport "d" (.raised (.importCycle "a")
    ⟨17, 28⟩) ⟨0, 11⟩) ⟨12, 23⟩) (.point 0)
  have hfails : (initial.program ⟨.ofTable diamondFiles, .builtin, 4⟩ diamondSheet).1 =
      .failed e := by
    decide +kernel
  obtain ⟨u, hu, himports, hnodup, -, hcycle⟩ :=
    imports_eq_pending_of_failed initial ⟨.ofTable diamondFiles, .builtin, 4⟩ diamondSheet e rfl
      hfails
  refine ⟨e, u, hfails, hu, ?_, rfl, hnodup, rfl, hcycle "a" _ rfl⟩
  rw [← List.reverse_reverse (u.pending.map Pending.path), ← himports]
  rfl

end Session

end StyleSheet

import StyleSheet.Proofs.Congruence
import StyleSheet.Session

/-!
# Traces of runs

A trace lists what a run does in the order in which it is done: rulesets are opened and closed,
declarations are executed, variables are assigned, and bodies of mixins and imported files are
entered and left.  When a run stops with an error, its trace stops there too, so that what was
entered and not left is still open at the end of the trace.

An evaluation may keep a record of any kind (`Traced`).  `Traced.run` is the evaluation of
statements with a record of its trace, and forgetting the record gives the evaluation itself
(`Traced.erase_run`).
-/

namespace StyleSheet

/-- What happens in a run. -/
inductive Event where
  /-- A ruleset is opened under its composed selectors. -/
  | opened (selectors : List String)
  /-- The ruleset that was opened last among those still open is closed. -/
  | closed
  /-- A declaration is executed. -/
  | declared (property : String) (values : List Value) (important : Bool)
  | assigned (name : String) (isGlobal : Bool)
  /-- The body of a mixin is entered. -/
  | entered (mixin : Mixin)
  | left
  /-- The statements of an imported file are entered. -/
  | importBegun (path : String) (sheet : Sheet)
  | importEnded

namespace Evaluation

/-- An evaluation that keeps a record of what happens in it. -/
def Traced (ω α : Type) : Type := State → List ω × Outcome α × State

namespace Traced

variable {ω α β : Type}

/-- Nothing happens. -/
protected def pure (a : α) : Traced ω α := fun s => ([], .ok a, s)

/-- What happens in the second part is recorded behind what happens in the first. -/
protected def bind (x : Traced ω α) (f : α → Traced ω β) : Traced ω β := fun s =>
  match x s with
  | (es, .ok a, t) => (es ++ (f a t).1, (f a t).2)
  | (es, .failed e, t) => (es, .failed e, t)
  | (es, .tooDeep, t) => (es, .tooDeep, t)

instance : Monad (Traced ω) where
  pure := Traced.pure
  bind := Traced.bind

/-- A computation in which nothing happens that is recorded. -/
def silent (x : Evaluation α) : Traced ω α := fun s => ([], x s)

/-- Records that something happens. -/
def emit (e : ω) : Traced ω Unit := fun s => ([e], .ok (), s)

/-- As `Evaluation.within`. -/
def within (enter : Environment → Environment) (x : Traced ω α) : Traced ω α := fun s =>
  match x { s with env := enter s.env } with
  | (es, outcome, t) => (es, outcome, { t with env := t.env.pop })

/-- As `Evaluation.importing`. -/
def importing (path : String) (span : Span) (x : Traced ω α) : Traced ω α := fun s =>
  match x (s.beginImport path) with
  | (es, .failed e, t) => (es, .failed (.inImport path e span), t.endImport)
  | (es, outcome, t) => (es, outcome, t.endImport)

/-- As `Evaluation.assign`; a variable that is left alone is not assigned. -/
def assign (name : String) (value : Expr) (isGlobal isDefault : Bool) : Traced Event Unit := do
  let env := (← silent state).env
  let bound := if isGlobal then env.lookupGlobal name else env.lookup name
  if isDefault && bound.isSome then return
  let v ← silent (valueOf value)
  emit (.assigned name isGlobal)
  silent (change fun env => if isGlobal then env.defineGlobal name v else env.define name v)

/-- As `Evaluation.declare`. -/
def declare (enclosing : Enclosing) (property : Token) (values : List Expr) (important : Bool)
    (span : Span) : Traced Event Output :=
  if enclosing.isNone then silent (fail .strayDeclaration span)
  else do
    let vs ← silent (valuesOf values)
    emit (.declared property.text vs important)
    return .declaration (Output.declarationText property.text (vs.map Value.shown) important)

/-- As `Evaluation.expand`. -/
def expand (deeper : Enclosing → List Stmt → Traced Event Output) (enclosing : Enclosing)
    (name : String) (args : List Expr) (span : Span) : Traced Event Output := do
  let s ← silent state
  match (s.env.lookupMixin name).filter (fun b => s.isAlive b.home) with
  | none => silent (fail (.undefinedMixin name) span)
  | some b =>
    if args.length < b.mixin.params.length then
      silent (fail (.missingArguments name b.mixin.params.length args.length) span)
    else do
      let values ← silent (valuesOf args)
      emit (.entered b.mixin)
      let out ← within (fun env => bindParams b.mixin.params values (env.pushIn b.home))
        (deeper enclosing b.mixin.body)
      emit .left
      return out

/-- As `Evaluation.importFile`. -/
def importFile (setting : Setting) (deeper : Enclosing → List Stmt → Traced Event Output)
    (enclosing : Enclosing) (path : String) (span : Span) : Traced Event Output := do
  if (← silent state).isImporting path then silent (fail (.importCycle path) span)
  else
    match importedSheet setting path with
    | .error fault => silent (fail fault span)
    | .ok sheet => do
      emit (.importBegun path sheet)
      let out ← importing path span (deeper enclosing sheet)
      emit .importEnded
      return out

/-- What the constructs of statements do, with a record of it. -/
def meaning (setting : Setting) (deeper : Enclosing → List Stmt → Traced Event Output) :
    Meaning (Traced Event Output) where
  empty := return .empty
  append x y := do
    let first ← x
    let others ← y
    return first ++ others
  assign name value isGlobal isDefault := do
    assign name value isGlobal isDefault
    return .empty
  ruleset enclosing header span x := do
    let selectors ← silent (selectorsOf enclosing header span)
    emit (.opened selectors)
    let body ← within (·.push) (x selectors)
    emit .closed
    return body.close selectors
  declare := declare
  mixin m := do
    silent (change (·.defineMixin m))
    return .empty
  expand := expand deeper
  importFile := importFile setting deeper
  branch condition yes no := do
    if ← silent (truthOf condition) then within (·.push) yes
    else
      match no with
      | some x => within (·.push) x
      | none => return .empty
  expr value := do
    let _ ← silent (valueOf value)
    return .empty

/-- As `Evaluation.run`. -/
def run (setting : Setting) (deeper : Enclosing → List Stmt → Traced Event Output)
    (enclosing : Enclosing) (s : Stmt) : Traced Event Output :=
  (meaning setting deeper).run enclosing s

/-- As `Evaluation.runAll`. -/
def runAll (setting : Setting) (deeper : Enclosing → List Stmt → Traced Event Output)
    (enclosing : Enclosing) (statements : List Stmt) : Traced Event Output :=
  (meaning setting deeper).runAll enclosing statements

/-- As `Evaluation.runUpTo`. -/
def runUpTo (setting : Setting) : Nat → Enclosing → List Stmt → Traced Event Output
  | 0, _, _ => silent tooDeep
  | depth + 1, enclosing, statements =>
    runAll setting (runUpTo setting depth) enclosing statements

/-- Runs the statements of a sheet outside every ruleset. -/
def runSheet (setting : Setting) (sheet : Sheet) : Traced Event Output :=
  runAll setting (runUpTo setting setting.maxDepth) none sheet

/-! ### Success and failure of a sequence -/

/-- A sequence goes on to its second part after a success of the first, and stops as the first
does otherwise. -/
lemma bind_cases {x : Traced ω α} {f : α → Traced ω β} {s u : State} {es : List ω}
    {o : Outcome β} (h : (x >>= f) s = (es, o, u)) :
    (∃ fs a t gs, x s = (fs, .ok a, t) ∧ f a t = (gs, o, u) ∧ es = fs ++ gs) ∨
      (∃ e, x s = (es, .failed e, u) ∧ o = .failed e) ∨
        (x s = (es, .tooDeep, u) ∧ o = .tooDeep) := by
  change Traced.bind x f s = _ at h
  unfold Traced.bind at h
  rcases hx : x s with ⟨fs, a | e | _, t⟩
  all_goals
    rw [hx] at h
    obtain ⟨hes, ho⟩ := Prod.mk.inj h
  · exact .inl ⟨fs, a, t, (f a t).1, rfl, by rw [← ho], hes.symm⟩
  · obtain ⟨rfl, rfl⟩ := Prod.mk.inj ho
    exact .inr (.inl ⟨e, by rw [hes], rfl⟩)
  · obtain ⟨rfl, rfl⟩ := Prod.mk.inj ho
    exact .inr (.inr ⟨by rw [hes], rfl⟩)

/-- A success comes from two successes, and their events add up. -/
lemma bind_ok {x : Traced ω α} {f : α → Traced ω β} {s u : State} {es : List ω} {b : β}
    (h : (x >>= f) s = (es, .ok b, u)) :
    ∃ fs a t gs, x s = (fs, .ok a, t) ∧ f a t = (gs, .ok b, u) ∧ es = fs ++ gs := by
  rcases bind_cases h with h | ⟨e, _, h⟩ | ⟨_, h⟩
  · exact h
  · cases h
  · cases h

/-- A failure is one of the first computation, or one of the second after a success. -/
lemma bind_failed {x : Traced ω α} {f : α → Traced ω β} {s u : State} {es : List ω}
    {e : EvalError} (h : (x >>= f) s = (es, .failed e, u)) :
    x s = (es, .failed e, u) ∨
      ∃ fs a t gs, x s = (fs, .ok a, t) ∧ f a t = (gs, .failed e, u) ∧ es = fs ++ gs := by
  rcases bind_cases h with h | ⟨e', h, he⟩ | ⟨_, h⟩
  · exact .inr h
  · cases he
    exact .inl h
  · cases h

/-- A silent computation has no events. -/
lemma silent_eq {x : Evaluation α} {s t : State} {es : List ω} {o : Outcome α}
    (h : silent x s = (es, o, t)) : es = [] ∧ x s = (o, t) := by
  obtain ⟨hes, hx⟩ := Prod.mk.inj h
  exact ⟨hes.symm, hx⟩

/-- What happens in a scope happens inside the two steps that enter and leave it. -/
lemma within_eq {enter : Environment → Environment} {x : Traced ω α} {s t : State}
    {es : List ω} {o : Outcome α} (h : within enter x s = (es, o, t)) :
    ∃ u, x { s with env := enter s.env } = (es, o, u) ∧ t = { u with env := u.env.pop } := by
  unfold within at h
  rcases hx : x { s with env := enter s.env } with ⟨fs, p, u⟩
  rw [hx] at h
  obtain ⟨rfl, hr⟩ := Prod.mk.inj h
  obtain ⟨rfl, rfl⟩ := Prod.mk.inj hr
  exact ⟨u, rfl, rfl⟩

/-- What happens in an import happens between its begin and its end. -/
lemma importing_eq {path : String} {span : Span} {x : Traced ω α} {s t : State} {es : List ω}
    {o : Outcome α} (h : importing path span x s = (es, o, t)) :
    ∃ o' u, x (s.beginImport path) = (es, o', u) ∧ t = u.endImport := by
  unfold importing at h
  rcases hx : x (s.beginImport path) with ⟨fs, _ | _ | _, u⟩
  all_goals
    rw [hx] at h
    cases h
    exact ⟨_, u, rfl, rfl⟩

/-- A success of an import is one of the run of its file, with the same events. -/
lemma importing_ok {path : String} {span : Span} {x : Traced ω α} {s t : State} {es : List ω}
    {a : α} (h : importing path span x s = (es, .ok a, t)) :
    ∃ u, x (s.beginImport path) = (es, .ok a, u) ∧ t = u.endImport := by
  unfold importing at h
  rcases hx : x (s.beginImport path) with ⟨fs, _ | _ | _, u⟩
  all_goals
    rw [hx] at h
    cases h
  exact ⟨u, rfl, rfl⟩

/-- An error comes out of an import with the place of the import. -/
lemma importing_failed {path : String} {span : Span} {x : Traced ω α} {s t : State}
    {es : List ω} {e : EvalError} (h : importing path span x s = (es, .failed e, t)) :
    ∃ e' u, x (s.beginImport path) = (es, .failed e', u) ∧ e = .inImport path e' span := by
  unfold importing at h
  rcases hx : x (s.beginImport path) with ⟨fs, _ | _ | _, u⟩
  all_goals
    rw [hx] at h
    cases h
  exact ⟨_, u, rfl, rfl⟩

/-- A success between two events. -/
lemma between_ok {a b : ω} {x : Traced ω α} {f : α → β} {s t : State} {es : List ω} {r : β}
    (h : (do emit a; let v ← x; emit b; return f v) s = (es, .ok r, t)) :
    ∃ fs v, x s = (fs, .ok v, t) ∧ r = f v ∧ es = a :: fs ++ [b] := by
  obtain ⟨fs, _, u, gs, ha, hrest, rfl⟩ := bind_ok h
  cases ha
  obtain ⟨fs, v, u, hs, hx, hlast, rfl⟩ := bind_ok hrest
  obtain ⟨ls, _, w, ms, hb, hpure, rfl⟩ := bind_ok hlast
  cases hb
  cases hpure
  exact ⟨fs, v, hx, rfl, rfl⟩

/-- After a failure between two events the second one does not happen. -/
lemma between_failed {a b : ω} {x : Traced ω α} {f : α → β} {s t : State} {es : List ω}
    {e : EvalError} (h : (do emit a; let v ← x; emit b; return f v) s = (es, .failed e, t)) :
    ∃ fs, x s = (fs, .failed e, t) ∧ es = a :: fs := by
  rcases bind_failed h with ha | ⟨fs, _, u, gs, ha, hrest, rfl⟩
  · cases ha
  · cases ha
    rcases bind_failed hrest with hx | ⟨fs, v, u, hs, hx, hlast, rfl⟩
    · exact ⟨gs, hx, rfl⟩
    · cases hlast

/-! ### Forgetting the record -/

/-- The evaluation without its record. -/
def erase (x : Traced ω α) : Evaluation α := fun s => (x s).2

/-- A silent computation without its events is the computation. -/
lemma erase_silent (x : Evaluation α) : (silent x : Traced ω α).erase = x := rfl

/-- Computations that follow one another do so without their events. -/
lemma erase_bind (x : Traced ω α) (f : α → Traced ω β) :
    (x >>= f).erase = x.erase >>= fun a => (f a).erase := by
  funext s
  change (Traced.bind x f s).2 = Evaluation.bind x.erase (fun a => (f a).erase) s
  unfold Traced.bind Evaluation.bind erase
  rcases x s with ⟨es, _ | _ | _, t⟩ <;> rfl

/-- An event leaves no mark on the evaluation. -/
lemma erase_emit_bind (e : ω) (f : Unit → Traced ω β) : (emit e >>= f).erase = (f ()).erase := rfl

/-- A computation in a scope of its own is so without its events. -/
lemma erase_within (enter : Environment → Environment) (x : Traced ω α) :
    (within enter x).erase = Evaluation.within enter x.erase := rfl

/-- An import is one without its events. -/
lemma erase_importing (path : String) (span : Span) (x : Traced ω α) :
    (importing path span x).erase = Evaluation.importing path span x.erase := by
  funext s
  simp only [erase, importing, Evaluation.importing]
  rcases x (s.beginImport path) with ⟨es, _ | _ | _, t⟩ <;> rfl

/-- A choice is one without its events. -/
lemma erase_ite {c : Prop} [Decidable c] (x y : Traced ω α) :
    (if c then x else y).erase = if c then x.erase else y.erase := by
  split <;> rfl

/-- The result of a computation is handed on unchanged after an event. -/
lemma erase_bind_emit (x : Traced ω α) (e : ω) :
    (x >>= fun a => emit e >>= fun _ => pure a).erase = x.erase := by
  funext s
  change (Traced.bind x _ s).2 = (x s).2
  unfold Traced.bind
  rcases x s with ⟨es, _ | _ | _, t⟩ <;> rfl

/-- An assignment without its events is the plain one. -/
lemma erase_assign (name : String) (value : Expr) (isGlobal isDefault : Bool) :
    (assign name value isGlobal isDefault).erase =
      Evaluation.assign name value isGlobal isDefault := by
  unfold assign Evaluation.assign
  rw [erase_bind, erase_silent]
  congr 1
  funext s
  rw [erase_ite, erase_bind]
  rfl

/-- A declaration without its events is the plain one. -/
lemma erase_declare (enclosing : Enclosing) (property : Token) (values : List Expr)
    (important : Bool) (span : Span) :
    (declare enclosing property values important span).erase =
      Evaluation.declare enclosing property values important span := by
  unfold declare Evaluation.declare
  rw [erase_ite, erase_bind]
  rfl

section Deeper

variable {setting : Setting} {deeper : Enclosing → List Stmt → Traced Event Output}
  {plain : Enclosing → List Stmt → Evaluation Output}
  (hdeeper : ∀ enclosing statements,
    (deeper enclosing statements).erase = plain enclosing statements)

include hdeeper

/-- The expansion of a mixin without its events is the plain one. -/
lemma erase_expand (enclosing : Enclosing) (name : String) (args : List Expr) (span : Span) :
    (expand deeper enclosing name args span).erase =
      Evaluation.expand plain enclosing name args span := by
  unfold expand Evaluation.expand
  rw [erase_bind, erase_silent]
  congr 1
  funext s
  cases (s.env.lookupMixin name).filter (fun b => s.isAlive b.home) with
  | none => rfl
  | some b =>
    have hbody : ∀ values, (emit (.entered b.mixin) >>= fun _ =>
        within (fun env => bindParams b.mixin.params values (env.pushIn b.home))
          (deeper enclosing b.mixin.body) >>= fun out => emit .left >>= fun _ => pure out).erase =
        Evaluation.within (fun env => bindParams b.mixin.params values (env.pushIn b.home))
          (plain enclosing b.mixin.body) := by
      intro values
      rw [erase_emit_bind, erase_bind_emit, erase_within, hdeeper]
    simp only [erase_ite, erase_bind (silent _), hbody]
    rfl

/-- An import of a file without its events is the plain one. -/
lemma erase_importFile (enclosing : Enclosing) (path : String) (span : Span) :
    (importFile setting deeper enclosing path span).erase =
      Evaluation.importFile setting plain enclosing path span := by
  unfold importFile Evaluation.importFile
  rw [erase_bind, erase_silent]
  congr 1
  funext s
  rw [erase_ite]
  congr 1
  cases importedSheet setting path with
  | error fault => rfl
  | ok sheet => rw [erase_emit_bind, erase_bind_emit, erase_importing, hdeeper]

/-- The record of each construct is kept beside what the construct does. -/
lemma related_erase : Meaning.Related (fun _ => True) (meaning setting deeper)
    (.ofWays (Evaluation.expand plain) (Evaluation.importFile setting plain))
    fun _ x y => x.erase = y where
  empty _ := rfl
  append hx hy := by
    simp only [meaning, Meaning.ofWays, erase_bind, hx, hy]
    rfl
  assign _ := by
    simp only [meaning, Meaning.ofWays, erase_bind, erase_assign]
    rfl
  ruleset _ hbody := by
    simp only [meaning, Meaning.ofWays, erase_bind, erase_silent, erase_within, hbody]
    rfl
  declare _ := erase_declare _ _ _ _ _
  mixin _ := by
    simp only [meaning, Meaning.ofWays, erase_bind, erase_silent]
    rfl
  expand _ := erase_expand hdeeper _ _ _ _
  importFile _ := erase_importFile hdeeper _ _ _
  branch _ hyes hno := by
    simp only [meaning, Meaning.ofWays, erase_bind, erase_silent, erase_ite, erase_within, hyes]
    cases hno with
    | none => rfl
    | some hno =>
      simp only [erase_within, hno]
  expr _ := by
    simp only [meaning, Meaning.ofWays, erase_bind, erase_silent]
    rfl

/-- The traced run of a statement is its run. -/
lemma erase_run (s : Stmt) (enclosing : Enclosing) :
    (run setting deeper enclosing s).erase = Evaluation.run setting plain enclosing s := by
  rw [run_eq_runBy]
  exact (related_erase hdeeper).run Stmt.hereditary_true trivial enclosing

/-- The traced run of statements is their run. -/
lemma erase_runAll (statements : List Stmt) (enclosing : Enclosing) :
    (runAll setting deeper enclosing statements).erase =
      Evaluation.runAll setting plain enclosing statements := by
  rw [runAll_eq_runAllBy]
  exact (related_erase hdeeper).runAll Stmt.hereditary_true (fun _ _ => trivial) enclosing

end Deeper

/-- By induction on the depth, runs of statements without their events are the plain ones. -/
lemma erase_runUpTo (setting : Setting) (depth : Nat) (enclosing : Enclosing)
    (statements : List Stmt) :
    (runUpTo setting depth enclosing statements).erase =
      Evaluation.runUpTo setting depth enclosing statements := by
  induction depth generalizing enclosing statements with
  | zero => rfl
  | succ depth ih => exact erase_runAll ih statements enclosing

/-- The run of a sheet without its events is the plain one. -/
lemma erase_runSheet (setting : Setting) (sheet : Sheet) :
    (runSheet setting sheet).erase =
      Evaluation.runAll setting (Evaluation.runUpTo setting setting.maxDepth) none sheet :=
  erase_runAll (erase_runUpTo setting setting.maxDepth) sheet none

end Traced

end Evaluation

namespace Session

open Evaluation

/-- The record of a program, with the outcome and the state that the program ends with. -/
def traced (s : Session) (setting : Setting) (sheet : Sheet) :
    List Event × Outcome Output × State :=
  Traced.runSheet setting sheet s.state

/-- What a session becomes after its statements have been run: on success all blocks are put out
behind those that were waiting, and the queue is empty in any case. -/
def conclude (s : Session) : Outcome Output × State → Outcome String × Session
  | (.ok out, t) => (.ok ("\n".intercalate (s.queue ++ out.blocks)), ⟨t, []⟩)
  | (.failed e, t) => (.failed e, ⟨t, []⟩)
  | (.tooDeep, t) => (.tooDeep, ⟨t, []⟩)

/-- A statement of a session is a statement run outside every ruleset. -/
lemma statement_eq (s : Session) (setting : Setting) (stmt : Stmt) :
    ∃ v, s.statement setting stmt = match runTop setting stmt s.state with
      | (.ok out, t) => (.ok v, ⟨t, s.queue ++ out.blocks⟩)
      | (.failed e, t) => (.failed e, ⟨t, s.queue⟩)
      | (.tooDeep, t) => (.tooDeep, ⟨t, s.queue⟩) := by
  cases stmt with
  | expr e =>
    have hrun : runTop setting (.expr e) s.state =
        Evaluation.bind (ofExcept (s.expression e)) (fun _ => pure Output.empty) s.state := by
      unfold runTop Evaluation.run
      rfl
    rw [hrun]
    unfold statement
    dsimp only
    cases s.expression e with
    | ok v =>
      refine ⟨v, ?_⟩
      simp [Evaluation.bind, Evaluation.ofExcept, pure, Evaluation.pure, Output.empty]
    | error e => exact ⟨.nothing, rfl⟩
  | _ => exact ⟨.nothing, rfl⟩

/-- A program is its statements run one after another, as those of a block are. -/
lemma program_eq_conclude_runAll (s : Session) (setting : Setting) (sheet : Sheet) :
    s.program setting sheet =
      s.conclude (runAll setting (runUpTo setting setting.maxDepth) none sheet s.state) := by
  induction sheet generalizing s with
  | nil =>
    unfold program runAll
    change (Outcome.ok s.output, s.drained) =
      (.ok ("\n".intercalate (s.queue ++ [])), ⟨s.state, []⟩)
    rw [List.append_nil]
    rfl
  | cons stmt rest ih =>
    obtain ⟨v, hstmt⟩ := s.statement_eq setting stmt
    have hrun : runAll setting (runUpTo setting setting.maxDepth) none (stmt :: rest) s.state =
        Evaluation.bind (runTop setting stmt) (fun first => Evaluation.bind
          (runAll setting (runUpTo setting setting.maxDepth) none rest)
          (fun others => pure (first ++ others))) s.state := by
      rw [runAll]
      rfl
    unfold program
    rw [hstmt, hrun]
    unfold Evaluation.bind
    -- only a success goes on, with its blocks at the end of the queue
    rcases runTop setting stmt s.state with ⟨_ | _ | _, t⟩
    · rename_i out
      change program ⟨t, s.queue ++ out.blocks⟩ setting rest = _
      rw [ih]
      dsimp only
      rcases runAll setting (runUpTo setting setting.maxDepth) none rest t with ⟨_ | _ | _, u⟩
      · rename_i others
        change (Outcome.ok _, _) =
          (Outcome.ok ("\n".intercalate (s.queue ++ (out.blocks ++ others.blocks))), _)
        rw [List.append_assoc]
      · rfl
      · rfl
    · rfl
    · rfl

/-- A program ends as its record says. -/
lemma program_eq_conclude_traced (s : Session) (setting : Setting) (sheet : Sheet) :
    s.program setting sheet = s.conclude (s.traced setting sheet).2 := by
  rw [program_eq_conclude_runAll, ← Traced.erase_runSheet]
  rfl

end Session

end StyleSheet

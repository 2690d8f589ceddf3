import Mathlib.Data.List.Chain
import StyleSheet.Proofs.Stacks
import StyleSheet.Proofs.Trace

/-!
# The states that a run goes through

A run changes its state step by step: it assigns, enters scopes and leaves them, begins imports and
ends them.  `Watched.run` is the evaluation of statements with a record of the state before and
after each of these steps, whatever its outcome (`Traced.watching`), so the record holds the state
at every moment of the run.  Forgetting it gives the evaluation itself (`Watched.erase_runUpTo`).

No import is missed by the record: it goes from the state at the start to the state at the end, and
between two states that follow each other in it at most one import begins or ends
(`Watched.seamless_runUpTo`).

What holds of all these states is an invariant of the evaluation.  `Traced.Through` says that an
evaluation which starts in a state with the property goes through such states only and ends in one.
-/

namespace StyleSheet.Evaluation

/-- Between the states at most one import begins or ends. -/
def State.Adjacent (u v : State) : Prop :=
  v.pending = u.pending ∨ (∃ p, v.pending = p :: u.pending) ∨ ∃ p, u.pending = p :: v.pending

namespace Traced

variable {α β : Type}

/-- Records the states before and after a computation. -/
def watching (x : Traced State α) : Traced State α := fun s =>
  match x s with
  | (states, outcome, t) => (s :: states ++ [t], outcome, t)

/-- Watching leaves no mark on the evaluation. -/
lemma erase_watching (x : Traced State α) : (watching x).erase = x.erase := rfl

/-! ### Properties of all states -/

/-- A run from a state with the property goes through states with the property, and ends in one
whatever its outcome. -/
def Through (P : State → Prop) (x : Traced State α) : Prop :=
  ∀ s, P s → (∀ u ∈ (x s).1, P u) ∧ P (x s).2.2

variable {P : State → Prop}

/-- A computation that nobody watches has to end in a state with the property. -/
lemma through_silent {x : Evaluation α} (hx : ∀ s, P s → P (x s).2) : Through P (silent x) :=
  fun s hs => ⟨fun _ hu => absurd hu List.not_mem_nil, hx s hs⟩

/-- A computation that only reads the state. -/
lemma through_silent_of_eq {x : Evaluation α} (hx : ∀ s, (x s).2 = s) : Through P (silent x) := by
  refine through_silent fun s hs => ?_
  rw [hx s]
  exact hs

/-- Doing nothing goes through no states. -/
lemma through_pure (a : α) : Through P (pure a : Traced State α) :=
  through_silent_of_eq (x := pure a) fun _ => rfl

/-- A computation that nobody watches and that restores the imports keeps a property that does not
depend on scopes. -/
lemma through_silent_of_restoring {x : Evaluation α} (hx : Restoring x)
    (hP : ∀ (s : State) (env : Environment), P s → P { s with env := env }) :
    Through P (silent x) := by
  refine through_silent fun s hs => ?_
  have hsame : (x s).2 = { s with env := (x s).2.env } := by
    rw [← (hx s).2]
  rw [hsame]
  exact hP s _ hs

/-- The second part of a sequence starts where the first one ends. -/
lemma Through.bind {x : Traced State α} {f : α → Traced State β} (hx : Through P x)
    (hf : ∀ a, Through P (f a)) : Through P (x >>= f) := by
  intro s hs
  obtain ⟨hseen, hend⟩ := hx s hs
  change (∀ u ∈ (Traced.bind x f s).1, P u) ∧ P (Traced.bind x f s).2.2
  unfold Traced.bind
  rcases hxs : x s with ⟨states, a | e | _, t⟩
  all_goals rw [hxs] at hseen hend
  · obtain ⟨hlater, hlast⟩ := hf a t hend
    exact ⟨fun u hu => (List.mem_append.mp hu).elim (hseen u) (hlater u), hlast⟩
  · exact ⟨hseen, hend⟩
  · exact ⟨hseen, hend⟩

/-- A computation that looks at the state it starts in. -/
lemma through_state_bind {f : State → Traced State α}
    (hf : ∀ s, P s → (∀ u ∈ (f s s).1, P u) ∧ P (f s s).2.2) :
    Through P (silent state >>= f) :=
  fun s hs => hf s hs

/-- A choice goes through states with the property if both of its sides do. -/
lemma through_ite {c : Prop} [Decidable c] {x y : Traced State α} (hx : Through P x)
    (hy : Through P y) : Through P (if c then x else y) :=
  iteInduction (fun _ => hx) fun _ => hy

/-- The states before and after a computation are the first and the last ones it goes through. -/
lemma Through.watching {x : Traced State α} (hx : Through P x) : Through P (watching x) := by
  intro s hs
  obtain ⟨hseen, hend⟩ := hx s hs
  refine ⟨fun u hu => ?_, hend⟩
  change u ∈ s :: (x s).1 ++ [(x s).2.2] at hu
  rcases List.mem_append.mp hu with hu | hu
  · rcases List.mem_cons.mp hu with rfl | hu
    · exact hs
    · exact hseen u hu
  · rw [List.mem_singleton.mp hu]
    exact hend

/-- A scope is entered and left inside of a run if the property does not depend on scopes. -/
lemma Through.within {x : Traced State α} (hx : Through P x)
    (hP : ∀ (s : State) (env : Environment), P s → P { s with env := env })
    (enter : Environment → Environment) : Through P (within enter x) := by
  intro s hs
  obtain ⟨hseen, hend⟩ := hx { s with env := enter s.env } (hP s _ hs)
  exact ⟨hseen, hP _ _ hend⟩

/-- A file is imported inside of a run: the begin of the import has to keep the property from the
state it starts in, and the end from any state. -/
lemma Through.importing {x : Traced State α} (hx : Through P x) {path : String} {s : State}
    (hbegin : P (s.beginImport path)) (hend : ∀ t, P t → P t.endImport) (span : Span) :
    (∀ u ∈ (importing path span x s).1, P u) ∧ P (importing path span x s).2.2 := by
  obtain ⟨hseen, hlast⟩ := hx _ hbegin
  unfold Traced.importing
  rcases hxs : x (s.beginImport path) with ⟨states, _ | _ | _, t⟩
  all_goals
    rw [hxs] at hseen hlast
    exact ⟨hseen, hend t hlast⟩

/-! ### Records without gaps -/

/-- At most one import begins or ends between the start, the states that are recorded one after
another, and the end. -/
def Gradual (x : Traced State α) : Prop :=
  ∀ s, (s :: (x s).1 ++ [(x s).2.2]).IsChain State.Adjacent

/-- The record goes from the start to the end, and at most one import begins or ends between two
states that follow each other in it. -/
structure Seamless (x : Traced State α) : Prop where
  head : ∀ s, (x s).1.head? = some s
  last : ∀ s, (x s).1.getLast? = some (x s).2.2
  chain : ∀ s, (x s).1.IsChain State.Adjacent

/-- Watching fills the gaps at both ends. -/
lemma Gradual.watching {x : Traced State α} (hx : Gradual x) : Seamless (watching x) where
  head _ := rfl
  last _ := List.getLast?_concat
  chain := hx

/-- A computation that nobody watches and that restores the imports. -/
lemma gradual_silent {x : Evaluation α} (hx : Restoring x) : Gradual (silent x) :=
  fun s => List.isChain_pair.mpr (.inl (hx s).2)

/-- The first part restores the imports without a record, so the record of the second part does for
both. -/
lemma gradual_silent_bind {x : Evaluation α} {f : α → Traced State β} (hx : Restoring x)
    (hf : ∀ a, Gradual (f a)) : Gradual (silent x >>= f) := by
  intro s
  have hpending := (hx s).2
  change (s :: (Traced.bind (silent x) f s).1 ++ [(Traced.bind (silent x) f s).2.2]).IsChain _
  unfold Traced.bind silent
  rcases hxs : x s with ⟨a | e | _, t⟩
  all_goals rw [hxs] at hpending
  · have hchain := hf a t
    rw [List.cons_append, List.isChain_cons] at hchain ⊢
    refine ⟨fun v hv => ?_, hchain.2⟩
    have hadjacent := hchain.1 v hv
    unfold State.Adjacent at hadjacent ⊢
    rwa [← hpending]
  · exact List.isChain_pair.mpr (.inl hpending)
  · exact List.isChain_pair.mpr (.inl hpending)

/-- A value may be made of the result. -/
lemma Gradual.bind_pure {x : Traced State α} (hx : Gradual x) (f : α → β) :
    Gradual (x >>= fun a => pure (f a)) := by
  intro s
  have hchain := hx s
  change (s :: (Traced.bind x _ s).1 ++ [(Traced.bind x _ s).2.2]).IsChain _
  unfold Traced.bind
  rcases hxs : x s with ⟨states, a | e | _, t⟩
  all_goals rw [hxs] at hchain
  · change (s :: (states ++ []) ++ [t]).IsChain _
    rwa [List.append_nil]
  · exact hchain
  · exact hchain

/-- A choice is without gaps if both of its sides are. -/
lemma gradual_ite {c : Prop} [Decidable c] {x y : Traced State α} (hx : Gradual x)
    (hy : Gradual y) : Gradual (if c then x else y) :=
  iteInduction (fun _ => hx) fun _ => hy

/-- A record without gaps is continued at both ends by states that are adjacent to them. -/
lemma Seamless.isChain {x : Traced State α} (hx : Seamless x) {s u v : State}
    (hbegin : u.Adjacent s) (hend : (x s).2.2.Adjacent v) :
    (u :: (x s).1 ++ [v]).IsChain State.Adjacent := by
  rw [List.cons_append, List.isChain_cons, List.isChain_append, List.head?_append, hx.head,
    hx.last]
  refine ⟨?_, hx.chain s, List.isChain_singleton v, ?_⟩
  · rintro w ⟨⟩
    exact hbegin
  · rintro w ⟨⟩ z ⟨⟩
    exact hend

/-- The ends of a record without gaps may be told twice. -/
lemma Seamless.gradual {x : Traced State α} (hx : Seamless x) : Gradual x :=
  fun _ => hx.isChain (.inl rfl) (.inl rfl)

/-- Entering and leaving a scope has nothing to do with imports. -/
lemma Seamless.within {x : Traced State α} (hx : Seamless x) (enter : Environment → Environment) :
    Gradual (within enter x) :=
  fun s => hx.isChain (s := { s with env := enter s.env }) (.inl rfl) (.inl rfl)

/-- An import begins before its statements are run and ends after them. -/
lemma Seamless.importing {x : Traced State α} (hx : Seamless x) (path : String) (span : Span) :
    Gradual (importing path span x) := by
  intro s
  have hbegin : s.Adjacent (s.beginImport path) := .inr (.inl ⟨_, rfl⟩)
  have hend : ∀ t : State, t.Adjacent t.endImport := by
    rintro ⟨env, _ | ⟨p, rest⟩⟩
    · exact .inl rfl
    · exact .inr (.inr ⟨p, rfl⟩)
  have hchain := hx.isChain hbegin (hend _)
  unfold Traced.importing
  rcases hxs : x (s.beginImport path) with ⟨states, _ | _ | _, t⟩
  all_goals
    rw [hxs] at hchain
    exact hchain

/-- Two outputs are put together after both parts, or only the first part is run. -/
lemma append_cases {x y : Traced State Output} {s u : State} {states : List State}
    {o : Outcome Output} (h : (do return (← x) ++ (← y) : Traced State Output) s = (states, o, u)) :
    (∃ o', x s = (states, o', u)) ∨
      ∃ fs o' t gs o'', x s = (fs, o', t) ∧ y t = (gs, o'', u) ∧ states = fs ++ gs := by
  rcases bind_cases h with ⟨fs, a, t, gs, hx, hrest, rfl⟩ | ⟨e, hx, -⟩ | ⟨hx, -⟩
  · refine .inr ?_
    rcases bind_cases hrest with ⟨gs, b, v, hs, hy, hpure, rfl⟩ | ⟨e, hy, -⟩ | ⟨hy, -⟩
    · cases hpure
      exact ⟨fs, _, t, gs, _, hx, hy, by rw [List.append_nil]⟩
    · exact ⟨fs, _, t, gs, _, hx, hy, rfl⟩
    · exact ⟨fs, _, t, gs, _, hx, hy, rfl⟩
  · exact .inl ⟨_, hx⟩
  · exact .inl ⟨_, hx⟩

/-- The record of a sequence goes on where that of its first part stops. -/
lemma Seamless.append {x y : Traced State Output} (hx : Seamless x) (hy : Seamless y) :
    Seamless (do return (← x) ++ (← y)) := by
  have hall : ∀ s, ((do return (← x) ++ (← y) : Traced State Output) s).1.head? = some s ∧
      ((do return (← x) ++ (← y) : Traced State Output) s).1.getLast? =
        some ((do return (← x) ++ (← y) : Traced State Output) s).2.2 ∧
      ((do return (← x) ++ (← y) : Traced State Output) s).1.IsChain State.Adjacent := by
    intro s
    have hhead := hx.head s
    have hlast := hx.last s
    have hchain := hx.chain s
    rcases h : (do return (← x) ++ (← y) : Traced State Output) s with ⟨states, o, u⟩
    rcases append_cases h with ⟨o', hxs⟩ | ⟨fs, o', t, gs, o'', hxs, hyt, rfl⟩
    all_goals rw [hxs] at hhead hlast hchain
    · exact ⟨hhead, hlast, hchain⟩
    · have hhead' := hy.head t
      have hlast' := hy.last t
      have hchain' := hy.chain t
      rw [hyt] at hhead' hlast' hchain'
      dsimp only at *
      rw [List.head?_append, List.getLast?_append, List.isChain_append, hhead, hlast, hhead',
        hlast']
      refine ⟨rfl, rfl, hchain, hchain', ?_⟩
      rintro v ⟨⟩ w ⟨⟩
      exact .inl rfl
  exact ⟨fun s => (hall s).1, fun s => (hall s).2.1, fun s => (hall s).2.2⟩

end Traced

open Traced (silent watching)

namespace Watched

/-- As `Evaluation.expand`. -/
def expand (deeper : Enclosing → List Stmt → Traced State Output) (enclosing : Enclosing)
    (name : String) (args : List Expr) (span : Span) : Traced State Output := do
  let s ← silent state
  match (s.env.lookupMixin name).filter (fun b => s.isAlive b.home) with
  | none => silent (fail (.undefinedMixin name) span)
  | some b =>
    if args.length < b.mixin.params.length then
      silent (fail (.missingArguments name b.mixin.params.length args.length) span)
    else do
      let values ← silent (valuesOf args)
      Traced.within (fun env => bindParams b.mixin.params values (env.pushIn b.home))
        (watching (deeper enclosing b.mixin.body))

/-- As `Evaluation.importFile`. -/
def importFile (setting : Setting) (deeper : Enclosing → List Stmt → Traced State Output)
    (enclosing : Enclosing) (path : String) (span : Span) : Traced State Output := do
  if (← silent state).isImporting path then silent (fail (.importCycle path) span)
  else
    match importedSheet setting path with
    | .error fault => silent (fail fault span)
    | .ok sheet => Traced.importing path span (watching (deeper enclosing sheet))

/-- What the constructs of statements do, with a record of the states before and after each of them
and at the begin and the end of each scope. -/
def meaning (setting : Setting) (deeper : Enclosing → List Stmt → Traced State Output) :
    Meaning (Traced State Output) where
  empty := watching (return .empty)
  append x y := do
    let first ← x
    let others ← y
    return first ++ others
  assign name value isGlobal isDefault := watching do
    silent (assign name value isGlobal isDefault)
    return .empty
  ruleset enclosing header span x := watching do
    let selectors ← silent (selectorsOf enclosing header span)
    let body ← Traced.within (·.push) (watching (x selectors))
    return body.close selectors
  declare enclosing property values important span :=
    watching (silent (declare enclosing property values important span))
  mixin m := watching do
    silent (change (·.defineMixin m))
    return .empty
  expand enclosing name args span := watching (expand deeper enclosing name args span)
  importFile enclosing path span := watching (importFile setting deeper enclosing path span)
  branch condition yes no := watching do
    if ← silent (truthOf condition) then Traced.within (·.push) (watching yes)
    else
      match no with
      | some x => Traced.within (·.push) (watching x)
      | none => return .empty
  expr value := watching do
    let _ ← silent (valueOf value)
    return .empty

/-- As `Evaluation.runUpTo`. -/
def runUpTo (setting : Setting) : Nat → Enclosing → List Stmt → Traced State Output
  | 0, _, _ => watching (silent tooDeep)
  | depth + 1, enclosing, statements =>
    (meaning setting (runUpTo setting depth)).runAll enclosing statements

/-! ### Forgetting the record -/

section Deeper

variable {setting : Setting} {deeper : Enclosing → List Stmt → Traced State Output}
  {plain : Enclosing → List Stmt → Evaluation Output}
  (hdeeper : ∀ enclosing statements,
    (deeper enclosing statements).erase = plain enclosing statements)

include hdeeper

/-- The expansion of a mixin without its record is the plain one. -/
lemma erase_expand (enclosing : Enclosing) (name : String) (args : List Expr) (span : Span) :
    (expand deeper enclosing name args span).erase =
      Evaluation.expand plain enclosing name args span := by
  unfold expand Evaluation.expand
  rw [Traced.erase_bind, Traced.erase_silent]
  congr 1
  funext s
  cases (s.env.lookupMixin name).filter (fun b => s.isAlive b.home) with
  | none => rfl
  | some b =>
    simp only [Traced.erase_ite, Traced.erase_bind, Traced.erase_within, Traced.erase_watching,
      hdeeper]
    rfl

/-- An import without its record is the plain one. -/
lemma erase_importFile (enclosing : Enclosing) (path : String) (span : Span) :
    (importFile setting deeper enclosing path span).erase =
      Evaluation.importFile setting plain enclosing path span := by
  unfold importFile Evaluation.importFile
  rw [Traced.erase_bind, Traced.erase_silent]
  congr 1
  funext s
  rw [Traced.erase_ite]
  congr 1
  cases importedSheet setting path with
  | error fault => rfl
  | ok sheet => rw [Traced.erase_importing, Traced.erase_watching, hdeeper]

/-- The states of each construct are kept beside what the construct does. -/
lemma related_erase : Meaning.Related (fun _ => True) (meaning setting deeper)
    (.ofWays (Evaluation.expand plain) (Evaluation.importFile setting plain))
    fun _ x y => x.erase = y where
  empty _ := rfl
  append hx hy := by
    simp only [meaning, Meaning.ofWays, Traced.erase_bind, hx, hy]
    rfl
  assign _ := by
    simp only [meaning, Meaning.ofWays, Traced.erase_watching, Traced.erase_bind,
      Traced.erase_silent]
    rfl
  ruleset _ hbody := by
    simp only [meaning, Meaning.ofWays, Traced.erase_watching, Traced.erase_bind,
      Traced.erase_silent, Traced.erase_within, hbody]
    rfl
  declare _ := rfl
  mixin _ := by
    simp only [meaning, Meaning.ofWays, Traced.erase_watching, Traced.erase_bind,
      Traced.erase_silent]
    rfl
  expand _ := erase_expand hdeeper _ _ _ _
  importFile _ := erase_importFile hdeeper _ _ _
  branch _ hyes hno := by
    simp only [meaning, Meaning.ofWays, Traced.erase_watching, Traced.erase_bind,
      Traced.erase_silent, Traced.erase_ite, Traced.erase_within, hyes]
    cases hno with
    | none => rfl
    | some hno => simp only [Traced.erase_within, Traced.erase_watching, hno]
  expr _ := by
    simp only [meaning, Meaning.ofWays, Traced.erase_watching, Traced.erase_bind,
      Traced.erase_silent]
    rfl

end Deeper

/-- The run without the record of its states is the evaluation. -/
lemma erase_runUpTo (setting : Setting) (depth : Nat) (enclosing : Enclosing)
    (statements : List Stmt) :
    (runUpTo setting depth enclosing statements).erase =
      Evaluation.runUpTo setting depth enclosing statements := by
  induction depth generalizing enclosing statements with
  | zero => rfl
  | succ depth ih =>
    rw [Evaluation.runUpTo, runAll_eq_runAllBy]
    exact (related_erase ih).runAll Stmt.hereditary_true (fun _ _ => trivial) enclosing

/-! ### No gaps -/

section Gaps

variable {setting : Setting} {deeper : Enclosing → List Stmt → Traced State Output}
  (hdeeper : ∀ enclosing statements, Traced.Gradual (deeper enclosing statements))

include hdeeper

/-- The body of a mixin is watched from its begin to its end. -/
lemma gradual_expand (enclosing : Enclosing) (name : String) (args : List Expr) (span : Span) :
    Traced.Gradual (expand deeper enclosing name args span) := by
  refine Traced.gradual_silent_bind restoring_state fun s => ?_
  split
  · exact Traced.gradual_silent (restoring_fail _ _)
  · refine Traced.gradual_ite (Traced.gradual_silent (restoring_fail _ _)) ?_
    exact Traced.gradual_silent_bind (restoring_valuesOf args) fun values =>
      (hdeeper _ _).watching.within _

/-- An imported file is watched from its begin to its end. -/
lemma gradual_importFile (enclosing : Enclosing) (path : String) (span : Span) :
    Traced.Gradual (importFile setting deeper enclosing path span) := by
  refine Traced.gradual_silent_bind restoring_state fun s => ?_
  refine Traced.gradual_ite (Traced.gradual_silent (restoring_fail _ _)) ?_
  split
  · exact Traced.gradual_silent (restoring_fail _ _)
  · exact (hdeeper _ _).watching.importing path span

/-- The record of each construct goes from its start to its end. -/
lemma related_seamless : Meaning.Related (fun _ => True) (meaning setting deeper)
    (meaning setting deeper) fun _ x _ => Traced.Seamless x where
  empty _ := (Traced.gradual_silent (restoring_pure _)).watching
  append hx hy := hx.append hy
  assign _ := (Traced.gradual_silent_bind (restoring_assign _ _ _ _) fun _ =>
    Traced.gradual_silent (restoring_pure _)).watching
  ruleset _ hbody := Traced.Gradual.watching <|
    Traced.gradual_silent_bind (restoring_selectorsOf _ _ _) fun selectors =>
      (((hbody selectors).gradual.watching.within _).bind_pure _)
  declare _ := (Traced.gradual_silent (restoring_declare _ _ _ _ _)).watching
  mixin _ := (Traced.gradual_silent_bind (congruent_restoring.defineMixin _) fun _ =>
    Traced.gradual_silent (restoring_pure _)).watching
  expand _ := (gradual_expand hdeeper _ _ _ _).watching
  importFile _ := (gradual_importFile hdeeper _ _ _).watching
  branch _ hyes hno := by
    refine (Traced.gradual_silent_bind (restoring_truthOf _) fun truth => ?_).watching
    refine Traced.gradual_ite (hyes.gradual.watching.within _) ?_
    cases hno with
    | none => exact Traced.gradual_silent (restoring_pure _)
    | some hno => exact hno.gradual.watching.within _
  expr _ := (Traced.gradual_silent_bind (restoring_valueOf _) fun _ =>
    Traced.gradual_silent (restoring_pure _)).watching

end Gaps

/-- The record of a run goes from its start to its end, and at most one import begins or ends
between two states that follow each other in it. -/
lemma seamless_runUpTo (setting : Setting) (depth : Nat) (enclosing : Enclosing)
    (statements : List Stmt) : Traced.Seamless (runUpTo setting depth enclosing statements) := by
  induction depth generalizing enclosing statements with
  | zero => exact (Traced.gradual_silent restoring_tooDeep).watching
  | succ depth ih =>
    exact (related_seamless fun enclosing statements => (ih enclosing statements).gradual).runAll
      Stmt.hereditary_true (fun _ _ => trivial) enclosing

/-! ### Invariants of the evaluation -/

section Invariant

variable {setting : Setting} {deeper : Enclosing → List Stmt → Traced State Output}
  {P : State → Prop} (hscopes : ∀ (s : State) (env : Environment), P s → P { s with env := env })
  (hbegin : ∀ s path sheet, P s → s.isImporting path = false →
    importedSheet setting path = .ok sheet → P (s.beginImport path))
  (hend : ∀ s, P s → P s.endImport)

section Deeper

variable (hdeeper : ∀ enclosing statements, Traced.Through P (deeper enclosing statements))

include hscopes hdeeper in
/-- The expansion of a mixin goes through states with the property if the run of its body does. -/
lemma through_expand (enclosing : Enclosing) (name : String) (args : List Expr) (span : Span) :
    Traced.Through P (expand deeper enclosing name args span) := by
  refine (Traced.through_silent_of_eq fun _ => rfl).bind fun s => ?_
  split
  · exact Traced.through_silent_of_eq fun _ => rfl
  · refine Traced.through_ite (Traced.through_silent_of_eq fun _ => rfl) ?_
    refine (Traced.through_silent_of_eq (state_valuesOf args)).bind fun values => ?_
    exact (hdeeper _ _).watching.within hscopes _

include hbegin hend hdeeper in
/-- An import begins only with a file that is not being imported and that can be read. -/
lemma through_importFile (enclosing : Enclosing) (path : String) (span : Span) :
    Traced.Through P (importFile setting deeper enclosing path span) := by
  refine Traced.through_state_bind fun s hs => ?_
  cases hpath : s.isImporting path with
  | true => exact Traced.through_silent_of_eq (fun _ => rfl) s hs
  | false =>
    rw [if_neg Bool.false_ne_true]
    cases hsheet : importedSheet setting path with
    | error fault => exact Traced.through_silent_of_eq (fun _ => rfl) s hs
    | ok sheet =>
      exact (hdeeper enclosing sheet).watching.importing (hbegin s path sheet hs hpath hsheet) hend
        span

include hscopes hbegin hend hdeeper

/-- Each construct keeps an invariant that does not depend on scopes and that imports keep. -/
lemma related_through : Meaning.Related (fun _ => True) (meaning setting deeper)
    (meaning setting deeper) fun _ x _ => Traced.Through P x where
  empty _ := (Traced.through_pure _).watching
  append hx hy := hx.bind fun _ => hy.bind fun _ => Traced.through_pure _
  assign _ := Traced.Through.watching <|
    (Traced.through_silent_of_restoring (restoring_assign _ _ _ _) hscopes).bind fun _ =>
      Traced.through_pure _
  ruleset {enclosing header _ _ span _ _} _ hbody := by
    refine Traced.Through.watching ?_
    refine (Traced.through_silent_of_eq (state_selectorsOf enclosing header span)).bind
      fun sels => ?_
    exact ((hbody sels).watching.within hscopes _).bind fun _ => Traced.through_pure _
  declare _ := (Traced.through_silent_of_restoring (restoring_declare _ _ _ _ _) hscopes).watching
  mixin {_ name params body _} _ := by
    have hdefine := Traced.through_silent_of_restoring (P := P)
      (congruent_restoring.defineMixin ⟨name, params.map Ident.name, body.statements⟩) hscopes
    exact (hdefine.bind fun _ => Traced.through_pure _).watching
  expand _ := (through_expand hscopes hdeeper _ _ _ _).watching
  importFile _ := (through_importFile hbegin hend hdeeper _ _ _).watching
  branch {_ condition _ _ _ _ _ _ _} _ hyes hno := by
    refine Traced.Through.watching ?_
    refine (Traced.through_silent_of_eq (state_truthOf condition)).bind fun truth => ?_
    refine Traced.through_ite (hyes.watching.within hscopes _) ?_
    cases hno with
    | none => exact Traced.through_pure _
    | some hno => exact hno.watching.within hscopes _
  expr {_ value} _ := by
    refine Traced.Through.watching ?_
    exact (Traced.through_silent_of_eq (state_valueOf value)).bind fun _ => Traced.through_pure _

end Deeper

include hscopes hbegin hend

/-- A run from a state with such an invariant goes through states with the invariant only. -/
lemma through_runUpTo (depth : Nat) (enclosing : Enclosing) (statements : List Stmt) :
    Traced.Through P (runUpTo setting depth enclosing statements) := by
  induction depth generalizing enclosing statements with
  | zero => exact (Traced.through_silent_of_eq fun _ => rfl).watching
  | succ depth ih =>
    exact (related_through hscopes hbegin hend ih).runAll Stmt.hereditary_true (fun _ _ => trivial)
      enclosing

end Invariant

end Watched

end StyleSheet.Evaluation

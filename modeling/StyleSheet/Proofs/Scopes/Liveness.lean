import StyleSheet.Proofs.Queue
import StyleSheet.Proofs.Scopes.Graph
import StyleSheet.Proofs.Scopes.Isolation

/-!
# Mixins that are found are alive

A mixin is bound together with the scope that it was declared in, and the binding does not hold that
scope.  So the scope could be gone when the mixin is used, and an expansion checks for it.

The check never fails.  A mixin is bound in the very scope that it was declared in, so a search that
finds it has walked to that scope along the parents of a scope that is held
(`living_home_of_lookupMixin`).  For the evaluation this is said by doing something else where the
check fails (`expandOr`): whatever it is, the evaluation is the same.  The evaluation itself is the
case in which the mixin is reported as undefined there (`runUpTo_eq_runUpToOr`).

The two evaluations are compared on the states that an evaluation goes through, which are *sound*
(`Isolated.sound`).
-/

namespace StyleSheet

/-! ### Workspaces -/

namespace Workspace.WellFormed

variable {w : Workspace} {root : ScopeId}

/-- The scope of a mixin that is found lives, and it is the nearest one that holds a mixin of the
name. -/
lemma living_home (h : w.WellFormed root) {i : Nat} {e : Environment} {name : String}
    {b : MixinBinding} (he : w.environment? i = some e) (hb : e.lookupMixin name = some b) :
    w.Living b.home ∧
      e.scopes.Nearest (e.scopes.mixinAt? name) e.stack.current b.home b := by
  obtain ⟨hwell, hentered⟩ := h.environment he
  obtain ⟨hscopes, hstack⟩ := environment?_eq_some he
  have hmem : e.stack.current ∈ e.stack.toList := List.mem_of_head? e.stack.head?_toList
  have hcurrent : e.stack.current < e.scopes.size := hentered _ hmem
  constructor
  · have hheld : e.stack.current ∈ w.holders :=
      List.mem_append_left _ (List.mem_flatMap.mpr ⟨e.stack, hstack.val, hmem⟩)
    have hpath := hwell.path_chain hcurrent
    rw [hscopes] at hpath
    refine living_of_mem_path hpath (.held hheld) b.home ?_
    rw [← hscopes]
    exact (hwell.home_of_lookupMixin hb).1
  · obtain ⟨found, hfound⟩ := (hwell.findSome?_chain_eq_some_iff hcurrent).mp hb
    obtain ⟨before, after, hpath, hbefore, hat⟩ := hfound
    obtain ⟨x, hx, hget⟩ := Option.bind_eq_some_iff.mp hat
    rw [hwell.home_eq hx hget]
    exact ⟨before, after, hpath, hbefore, hat⟩

end Workspace.WellFormed

/-! ### Sound states -/

namespace Evaluation

variable {α β : Type} {s : State}

/-- The first state is sound. -/
lemma State.sound_initial : State.initial.Sound := ⟨Environment.wellFormed_initial, by decide⟩

/-- A state stays sound when a scope is entered. -/
lemma State.Sound.push (h : s.Sound) : State.Sound { s with env := s.env.push } :=
  sound_of_related (s := { s with env := s.env.push }) (t := { s with env := s.env.push })
    (h.related_self.pushIn h.related_self.current)

/-- The body of a mixin is entered in a sound state. -/
lemma State.Sound.pushIn (h : s.Sound) {home : ScopeId} (hhome : home < s.env.scopes.size)
    (params : List String) (values : List Value) :
    State.Sound { s with env := bindParams params values (s.env.pushIn home) } := by
  have hentered := (h.related_self.pushIn ⟨rfl, hhome⟩).bindParams params values
  exact ⟨hentered.left, (hentered.scopes.lt_size hentered.current).1⟩

/-- A state stays sound when an import begins. -/
lemma State.Sound.beginImport (h : s.Sound) (path : String) : (s.beginImport path).Sound :=
  ⟨h.env.withStack rfl, h.env.root_lt⟩

/-! ### Something else for mixins whose scope is gone -/

/-- As `expand`, with something else done where the mixin is found but its scope is gone. -/
def expandOr (dead : String → Span → Evaluation Output)
    (deeper : Enclosing → List Stmt → Evaluation Output) (enclosing : Enclosing)
    (name : String) (args : List Expr) (span : Span) : Evaluation Output := do
  let s ← state
  match s.env.lookupMixin name with
  | none => fail (.undefinedMixin name) span
  | some b =>
    if s.isAlive b.home then expandFound deeper enclosing name args span b else dead name span

/-- As `runUpTo`, with something else done where a mixin is found but its scope is gone. -/
def runUpToOr (dead : String → Span → Evaluation Output) (setting : Setting) :
    Nat → Enclosing → List Stmt → Evaluation Output
  | 0, _, _ => tooDeep
  | depth + 1, enclosing, statements =>
    runAllBy (expandOr dead (runUpToOr dead setting depth))
      (importFile setting (runUpToOr dead setting depth)) enclosing statements

/-- An undefined mixin, as it is reported. -/
def undefined (name : String) (span : Span) : Evaluation Output := fail (.undefinedMixin name) span

/-- Expanding reports a mixin whose scope is gone as undefined. -/
lemma expand_eq_expandOr (deeper : Enclosing → List Stmt → Evaluation Output) :
    expand deeper = expandOr undefined deeper := by
  funext enclosing name args span s
  cases hb : s.env.lookupMixin name with
  | none => simp only [expand, expandOr, Bind.bind, Evaluation.bind, state, hb, Option.filter_none]
  | some b =>
    cases halive : s.isAlive b.home with
    | true =>
      rw [expand_of_isAlive hb halive]
      simp only [expandOr, Bind.bind, Evaluation.bind, state, hb, halive, ↓reduceIte]
    | false =>
      simp only [expand, expandOr, undefined, Bind.bind, Evaluation.bind, state, hb,
        Option.filter_some, halive, Bool.false_eq_true, ↓reduceIte]

/-- The evaluation reports such a mixin as undefined. -/
lemma runUpTo_eq_runUpToOr (setting : Setting) (depth : Nat) :
    runUpTo setting depth = runUpToOr undefined setting depth := by
  induction depth with
  | zero => rfl
  | succ depth ih =>
    funext enclosing statements
    rw [runUpTo, runUpToOr, runAll_eq_runAllBy, expand_eq_expandOr, ih]

/-- The second computation is isolated, and from sound states the first does the same. -/
structure EqOnSound (x y : Evaluation α) : Prop where
  isolated : Isolated y
  eq : ∀ ⦃s⦄, s.Sound → x s = y s

/-- An isolated computation does the same as itself. -/
lemma eqOnSound_self {x : Evaluation α} (hx : Isolated x) : EqOnSound x x := ⟨hx, fun _ _ => rfl⟩

/-- Computations that do the same from sound states may be followed by such computations. -/
lemma EqOnSound.bind {x y : Evaluation α} {f g : α → Evaluation β} (hx : EqOnSound x y)
    (hf : ∀ a, EqOnSound (f a) (g a)) : EqOnSound (x >>= f) (y >>= g) := by
  refine ⟨hx.isolated.bind fun a => (hf a).isolated, fun s hs => ?_⟩
  change Evaluation.bind x f s = Evaluation.bind y g s
  rw [Evaluation.bind, Evaluation.bind, hx.eq hs]
  rcases hy : y s with ⟨_ | _ | _, t⟩
  · exact (hf _).eq (hx.isolated.sound hs hy)
  · rfl
  · rfl

/-- All ways to put statements together keep computations the same from sound states. -/
lemma congruent_eqOnSound : Congruent fun _ x y => EqOnSound x y where
  pure _ a := eqOnSound_self (isolated_pure a)
  bind _ _ _ _ _ _ hx hf := hx.bind hf
  within _ _ hx := by
    refine ⟨hx.isolated.within, fun s hs => ?_⟩
    rw [Evaluation.within, Evaluation.within, hx.eq hs.push]
  valueOf e := eqOnSound_self (isolated_valueOf e)
  truthOf condition := eqOnSound_self (isolated_truthOf condition)
  selectorsOf enclosing header span := eqOnSound_self (isolated_selectorsOf enclosing header span)
  declare enclosing property values important span :=
    eqOnSound_self (isolated_declare enclosing property values important span)
  assign name value isGlobal isDefault :=
    eqOnSound_self (isolated_assign name value isGlobal isDefault)
  defineMixin _ := eqOnSound_self (congruent_isolated.defineMixin _)

section Deeper

variable {setting : Setting} {dead : String → Span → Evaluation Output}
  {deeper deeper' : Enclosing → List Stmt → Evaluation Output}

/-- Expansions of one mixin do the same if the runs of its body do. -/
lemma expandFound_eq
    (hdeeper : ∀ enclosing statements,
      EqOnSound (deeper enclosing statements) (deeper' enclosing statements))
    (hs : s.Sound) {b : MixinBinding} (hhome : b.home < s.env.scopes.size) (enclosing : Enclosing)
    (name : String) (args : List Expr) (span : Span) :
    expandFound deeper enclosing name args span b s =
      expandFound deeper' enclosing name args span b s := by
  unfold expandFound
  split
  · rfl
  · have hstate := state_valuesOf args s
    simp only [Bind.bind, Evaluation.bind]
    rcases hvalues : valuesOf args s with ⟨values | _ | _, t⟩
    · rw [hvalues] at hstate
      obtain rfl : t = s := hstate
      have hbody := (hdeeper enclosing b.mixin.body).eq (hs.pushIn hhome b.mixin.params values)
      simp only [within, hbody]
    · rfl
    · rfl

/-- Both expand what they find, since it is alive. -/
lemma eqOnSound_expandOr
    (hdeeper : ∀ enclosing statements,
      EqOnSound (deeper enclosing statements) (deeper' enclosing statements))
    (enclosing : Enclosing) (name : String) (args : List Expr) (span : Span) :
    EqOnSound (expandOr dead deeper enclosing name args span)
      (expand deeper' enclosing name args span) := by
  refine ⟨isolated_expand (fun e l => (hdeeper e l).isolated) enclosing name args span, ?_⟩
  intro s hs
  cases hb : s.env.lookupMixin name with
  | none =>
    rw [expand_of_lookupMixin_eq_none hb]
    simp only [expandOr, Bind.bind, Evaluation.bind, state, hb]
  | some b =>
    have halive : s.isAlive b.home = true := hs.env.isAlive_of_lookupMixin hb
    have hfound : expandOr dead deeper enclosing name args span s =
        expandFound deeper enclosing name args span b s := by
      simp only [expandOr, Bind.bind, Evaluation.bind, state, hb, halive, ↓reduceIte]
    rw [hfound, expand_of_isAlive hb halive]
    exact expandFound_eq hdeeper hs (hs.env.home_of_lookupMixin hb).2 enclosing name args span

/-- Imports do the same from sound states if the runs of their statements do. -/
lemma eqOnSound_importFile
    (hdeeper : ∀ enclosing statements,
      EqOnSound (deeper enclosing statements) (deeper' enclosing statements))
    (enclosing : Enclosing) (path : String) (span : Span) :
    EqOnSound (importFile setting deeper enclosing path span)
      (importFile setting deeper' enclosing path span) := by
  refine ⟨isolated_importFile (fun e l => (hdeeper e l).isolated) enclosing path span, ?_⟩
  intro s hs
  cases hpath : s.isImporting path with
  | true => rw [importFile_of_isImporting hpath, importFile_of_isImporting hpath]
  | false =>
    cases hsheet : importedSheet setting path with
    | error fault => rw [importFile_of_error hpath hsheet, importFile_of_error hpath hsheet]
    | ok sheet =>
      rw [importFile_of_ok hpath hsheet, importFile_of_ok hpath hsheet, importing, importing,
        (hdeeper enclosing sheet).eq (hs.beginImport path)]

end Deeper

/-- By induction on the depth, what is done for a mixin whose scope is gone makes no difference from
sound states. -/
lemma eqOnSound_runUpToOr (dead : String → Span → Evaluation Output) (setting : Setting)
    (depth : Nat) (enclosing : Enclosing) (statements : List Stmt) :
    EqOnSound (runUpToOr dead setting depth enclosing statements)
      (runUpTo setting depth enclosing statements) := by
  induction depth generalizing enclosing statements with
  | zero => exact eqOnSound_self (isolated_runUpTo setting 0 enclosing statements)
  | succ depth ih =>
    rw [runUpTo, runUpToOr, runAll_eq_runAllBy]
    exact congruent_eqOnSound.runAllBy (eqOnSound_expandOr ih) (eqOnSound_importFile ih) statements
      enclosing

end Evaluation

/-! ### Sessions -/

namespace Session

open Evaluation

variable {s : Session}

/-- A session stays sound over a statement. -/
lemma sound_statement (hs : s.state.Sound) (setting : Setting) (stmt : Stmt) :
    (s.statement setting stmt).2.state.Sound := by
  unfold statement
  split
  · split <;> exact hs
  · split
    all_goals
      rename_i hrun
      exact (isolated_runTop setting stmt).sound hs hrun

/-- A session stays sound over a program. -/
lemma sound_program (hs : s.state.Sound) (setting : Setting) (sheet : Sheet) :
    (s.program setting sheet).2.state.Sound := by
  induction sheet generalizing s with
  | nil => exact hs
  | cons stmt rest ih =>
    have hnext := sound_statement hs setting stmt
    unfold program
    split
    all_goals
      rename_i hstmt
      rw [hstmt] at hnext
    · exact ih hnext
    · exact hnext
    · exact hnext

/-- A session stays sound over a call. -/
lemma sound_after (hs : s.state.Sound) (setting : Setting) (call : Call) :
    (s.after setting call).state.Sound := by
  cases call with
  | program sheet => exact sound_program hs setting sheet
  | statement stmt => exact sound_statement hs setting stmt
  | expression e => exact hs
  | takeOutput => exact hs

/-- A session stays sound over all its calls. -/
lemma sound_afterAll (hs : s.state.Sound) (setting : Setting) (calls : List Call) :
    (s.afterAll setting calls).state.Sound := by
  unfold afterAll
  induction calls generalizing s with
  | nil => exact hs
  | cons call rest ih => exact ih (sound_after hs setting call)

end Session

/-- After any actions on a workspace, the scope that a mixin was declared in lives whenever the
mixin can be found from some stack, and it is the nearest scope there that holds a mixin of the
name. So in every evaluation after any calls of a session, no matter what would be done where a
mixin is found but its scope is gone, it is not done. -/
theorem living_home_of_lookupMixin :
    (∀ (actions : List Workspace.Action) (w : Workspace), Workspace.initial.run actions = w →
      ∀ i e name b, w.environment? i = some e → e.lookupMixin name = some b →
        w.Living b.home ∧
          e.scopes.Nearest (e.scopes.mixinAt? name) e.stack.current b.home b) ∧
    ∀ (setting : Setting) (calls : List Session.Call) (s : Evaluation.State),
      (Session.initial.afterAll setting calls).state = s →
      ∀ dead depth enclosing statements,
        Evaluation.runUpToOr dead setting depth enclosing statements s =
          Evaluation.runUpTo setting depth enclosing statements s := by
  constructor
  · intro actions w hw i e name b he hb
    have hwell : w.WellFormed 0 := hw ▸ Workspace.wellFormed_initial.run actions
    exact hwell.living_home he hb
  · intro setting calls s hs dead depth enclosing statements
    have hsound : s.Sound :=
      hs ▸ Session.sound_afterAll Evaluation.State.sound_initial setting calls
    exact (Evaluation.eqOnSound_runUpToOr dead setting depth enclosing statements).eq hsound

/-- A scope that declares a mixin twice is saved and left, and on a second stack a scope is entered
below it.  The global scope declares a mixin of the same name. -/
def reopenedActions : List Workspace.Action :=
  [.defineMixin 0 ⟨"m", [], []⟩, .push 0, .defineMixin 0 ⟨"m", ["$a"], []⟩,
    .defineMixin 0 ⟨"m", ["$b"], []⟩, .saveCurrent 0 "s", .pop 0, .child 0, .pushIn 1 "s"]

/-- The second stack after these actions. -/
def reopenedEnvironment : Environment :=
  ⟨(Workspace.initial.run reopenedActions).scopes, ⟨0, [2]⟩⟩

/-- `@mixin m{ x: red }` -/
def redMixin : Stmt :=
  .mixin "m" [] ⟨[.declare ⟨.property, "x", .point 0⟩ [.text "red" (.point 0)] false (.point 0)],
    .point 0⟩ (.point 0)

/-- `A{ @include m }` -/
def redRuleset : Stmt :=
  .ruleset [⟨.typeSelector, "A", .point 0⟩] [.expand "m" [] (.point 0)] [] (.point 0)

/-- The later declaration in the saved scope is found, which lives through its handle and the scope
below it.  A mixin of an earlier program is expanded, where giving up is the other choice. -/
theorem living_home_of_lookupMixin_reopenedActions :
    reopenedEnvironment.lookupMixin "m" = some ⟨⟨"m", ["$b"], []⟩, 1⟩ ∧
      (Workspace.initial.run reopenedActions).Living 1 ∧
      reopenedEnvironment.scopes.Nearest (reopenedEnvironment.scopes.mixinAt? "m") 2 1
        ⟨⟨"m", ["$b"], []⟩, 1⟩ ∧
      (Evaluation.runUpToOr (fun _ _ => Evaluation.tooDeep) Session.fileless 2 none [redRuleset]
        (Session.initial.afterAll Session.fileless [.program [redMixin]]).state).1 =
        .ok ⟨[], ["A\x7bx:red;\x7d"]⟩ := by
  have he : (Workspace.initial.run reopenedActions).environment? 1 = some reopenedEnvironment := rfl
  have hb : reopenedEnvironment.lookupMixin "m" = some ⟨⟨"m", ["$b"], []⟩, 1⟩ := by cbv
  have hout : (Evaluation.runUpTo Session.fileless 2 none [redRuleset]
      (Session.initial.afterAll Session.fileless [.program [redMixin]]).state).1 =
      .ok ⟨[], ["A\x7bx:red;\x7d"]⟩ := by decide +kernel
  obtain ⟨hworkspace, hsession⟩ := living_home_of_lookupMixin
  obtain ⟨hliving, hnearest⟩ := hworkspace reopenedActions _ rfl 1 _ "m" _ he hb
  refine ⟨hb, hliving, hnearest, ?_⟩
  rw [hsession Session.fileless [.program [redMixin]] _ rfl]
  exact hout

end StyleSheet

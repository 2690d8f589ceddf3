import Mathlib
import StyleSheet.Proofs.Scopes.Matching
import StyleSheet.Proofs.Stacks

/-!
# Mixins and imports do not see where they are used

The body of a mixin runs below the scope the mixin was declared in, and an imported file runs in the
global scope.  What they put out, or the error they end with, is determined by the scopes on the
chain from there down to the global one, whatever the scopes at the place of use hold
(`outcome_eq_of_agreeAt`).

This is a statement on two runs from two states.  The runs start with the scopes of the two chains
related, and they relate each two scopes that are made at the same point of both.  At all times the
innermost scopes are related, so both runs look up the same and take the same steps
(`Isolated.alike`).
-/

namespace StyleSheet

namespace Evaluation

open Scopes

variable {α β : Type} {R : ScopeId → ScopeId → Prop} {s t : State}

/-- The paths of the imports under way, innermost first. -/
def State.paths (s : State) : List String := s.pending.map Pending.path

/-- A file is being imported exactly if its path is among those of the imports under way. -/
lemma State.isImporting_iff {path : String} : s.isImporting path = true ↔ path ∈ s.paths := by
  simp [isImporting, paths]

/-- Two computations from two states have the same outcome, and they end in states whose
environments match along a wider relation and which are importing the same files. -/
def RunsAlike (R : ScopeId → ScopeId → Prop) (s t : State) (x y : Evaluation α) : Prop :=
  ∃ o s' t' R', x s = (o, s') ∧ y t = (o, t') ∧ R ≤ R' ∧
    Environment.Matches R' s'.env t'.env ∧ s'.paths = t'.paths

/-- A computation restores the stacks, and from related states it runs alike. -/
structure Isolated (x : Evaluation α) : Prop where
  restoring : Restoring x
  alike : ∀ ⦃R s t⦄, Environment.Related R s.env t.env → s.paths = t.paths →
    RunsAlike R s t x x

/-- A computation that restores the stacks keeps states related if their environments match. -/
lemma Restoring.related {x : Evaluation α} (hx : Restoring x)
    (h : Environment.Related R s.env t.env)
    {o p : Outcome α} {s' t' : State} (hs : x s = (o, s')) (ht : x t = (p, t'))
    {R' : ScopeId → ScopeId → Prop} (hle : R ≤ R') (hm : Environment.Matches R' s'.env t'.env) :
    Environment.Related R' s'.env t'.env := by
  have hs' : s.SameStacks s' := by
    have hrestored := hx s
    rwa [hs] at hrestored
  have ht' : t.SameStacks t' := by
    have hrestored := hx t
    rwa [ht] at hrestored
  refine ⟨hm, ?_⟩
  rw [hs'.1, ht'.1]
  exact hle _ _ h.current

/-! ### Parts of a computation -/

/-- Computations that run alike may be followed by computations that do, along the wider relation.
-/
lemma RunsAlike.bind {x y : Evaluation α} {f g : α → Evaluation β} (h : RunsAlike R s t x y)
    (hfg : ∀ ⦃a s' t' R'⦄, x s = (.ok a, s') → y t = (.ok a, t') → R ≤ R' →
      Environment.Matches R' s'.env t'.env → s'.paths = t'.paths →
      RunsAlike R' s' t' (f a) (g a)) : RunsAlike R s t (x >>= f) (y >>= g) := by
  obtain ⟨o, s', t', R', hx, hy, hle, hm, hpaths⟩ := h
  change RunsAlike R s t (Evaluation.bind x f) (Evaluation.bind y g)
  cases o with
  | ok a =>
    obtain ⟨o, s'', t'', R'', hfs, hgt, hle', hm', hpaths'⟩ := hfg hx hy hle hm hpaths
    refine ⟨o, s'', t'', R'', ?_, ?_, hle.trans hle', hm', hpaths'⟩
    · rw [Evaluation.bind, hx]
      exact hfs
    · rw [Evaluation.bind, hy]
      exact hgt
  | failed e =>
    refine ⟨.failed e, s', t', R', ?_, ?_, hle, hm, hpaths⟩
    · rw [Evaluation.bind, hx]
    · rw [Evaluation.bind, hy]
  | tooDeep =>
    refine ⟨.tooDeep, s', t', R', ?_, ?_, hle, hm, hpaths⟩
    · rw [Evaluation.bind, hx]
    · rw [Evaluation.bind, hy]

/-- Isolated computations that follow one another are isolated. -/
lemma Isolated.bind {x : Evaluation α} {f : α → Evaluation β} (hx : Isolated x)
    (hf : ∀ a, Isolated (f a)) : Isolated (x >>= f) := by
  refine ⟨hx.restoring.bind fun a => (hf a).restoring, fun R s t h hpaths => ?_⟩
  refine (hx.alike h hpaths).bind fun a s' t' R' hxs hxt hle hm hpaths' => ?_
  exact (hf a).alike (hx.restoring.related h hxs hxt hle hm) hpaths'

/-- A computation that only reads the state is isolated if it reads the same in related states. -/
lemma isolated_of_reads {x : Evaluation α} (hx : ∀ s, (x s).2 = s)
    (heq : ∀ {R s t}, Environment.Related R s.env t.env → (x s).1 = (x t).1) : Isolated x := by
  refine ⟨fun s => ?_, fun R s t h hpaths => ?_⟩
  · rw [hx s]
    exact .refl s
  · exact ⟨(x s).1, s, t, R, Prod.ext rfl (hx s), Prod.ext (heq h).symm (hx t), le_refl R,
      h.toMatches, hpaths⟩

/-- A computation that does nothing is isolated. -/
lemma isolated_pure (a : α) : Isolated (pure a : Evaluation α) :=
  isolated_of_reads (fun _ => rfl) fun _ => rfl

/-- A failure is isolated. -/
lemma isolated_fail (fault : Fault) (span : Span) : Isolated (fail fault span : Evaluation α) :=
  isolated_of_reads (fun _ => rfl) fun _ => rfl

/-- A choice is isolated if both of its sides are. -/
lemma isolated_ite {c : Prop} [Decidable c] {x y : Evaluation α} (hx : Isolated x)
    (hy : Isolated y) : Isolated (if c then x else y) :=
  iteInduction (fun _ => hx) fun _ => hy

/-- A change of the scopes that keeps environments related is isolated. -/
lemma isolated_change {f : Environment → Environment} (hstack : ∀ e, (f e).stack = e.stack)
    (hf : ∀ {R e e'}, Environment.Related R e e' → Environment.Related R (f e) (f e')) :
    Isolated (change f) := by
  refine ⟨restoring_change hstack, fun R s t h hpaths => ?_⟩
  exact ⟨.ok (), _, _, R, rfl, rfl, le_refl R, (hf h).toMatches, hpaths⟩

/-- Only what the computations do from the two states matters. -/
lemma RunsAlike.of_eq {x x' y y' : Evaluation α} (h : RunsAlike R s t x' y') (hx : x s = x' s)
    (hy : y t = y' t) : RunsAlike R s t x y := by
  rwa [RunsAlike, hx, hy]

/-- A scope is entered in both runs, and afterwards it is left again. -/
lemma RunsAlike.within {enter enter' : Environment → Environment} {x y : Evaluation α}
    {R' : ScopeId → ScopeId → Prop}
    (h : RunsAlike R' { s with env := enter s.env } { t with env := enter' t.env } x y)
    (hle : R ≤ R') : RunsAlike R s t (within enter x) (within enter' y) := by
  obtain ⟨o, u, v, R'', hx, hy, hle', hm, hpaths⟩ := h
  refine ⟨o, { u with env := u.env.pop }, { v with env := v.env.pop }, R'', ?_, ?_, hle.trans hle',
    hm.withStacks rfl rfl, hpaths⟩
  · rw [Evaluation.within, hx]
  · rw [Evaluation.within, hy]

/-- An isolated computation may run in a scope of its own. -/
lemma Isolated.within {x : Evaluation α} (hx : Isolated x) : Isolated (within (·.push) x) := by
  refine ⟨hx.restoring.within fun _ => rfl, fun R s t h hpaths => ?_⟩
  have hbody : RunsAlike (adjoin R s.env.scopes.size t.env.scopes.size)
      { s with env := s.env.push } { t with env := t.env.push } x x :=
    hx.alike (h.pushIn h.current) hpaths
  exact hbody.within (le_adjoin R _ _)

/-- Both runs of an imported file start with nothing above matching global scopes. -/
lemma Isolated.importing {x : Evaluation α} (hx : Isolated x)
    (hm : Environment.Matches R s.env t.env) (hpaths : s.paths = t.paths) (path : String)
    (span : Span) : RunsAlike R s t (importing path span x) (importing path span x) := by
  have hbegun : Environment.Related R (s.beginImport path).env (t.beginImport path).env :=
    ⟨hm.withStacks rfl rfl, hm.root⟩
  have hpaths' : (s.beginImport path).paths = (t.beginImport path).paths :=
    congrArg (path :: ·) hpaths
  obtain ⟨o, u, v, R', hs, ht, hle, hend, -⟩ := hx.alike hbegun hpaths'
  -- the run of the file restores the stack of its begin, which stands on the same global scope
  have hroot : ∀ {r w : State}, x (r.beginImport path) = (o, w) →
      r.env.stack.root = w.env.stack.root := by
    intro r w hr
    have hrestored := hx.restoring (r.beginImport path)
    rw [hr] at hrestored
    rw [hrestored.1]
    rfl
  have hmatches : Environment.Matches R' u.endImport.env v.endImport.env := by
    rw [hx.restoring.endImport_eq hs, hx.restoring.endImport_eq ht]
    exact hend.withStacks (hroot hs) (hroot ht)
  have hsame : u.endImport.paths = v.endImport.paths := by
    rw [hx.restoring.endImport_eq hs, hx.restoring.endImport_eq ht]
    exact hpaths
  cases o with
  | failed e =>
    refine ⟨.failed (.inImport path e span), _, _, R', ?_, ?_, hle, hmatches, hsame⟩
    · rw [Evaluation.importing, hs]
    · rw [Evaluation.importing, ht]
  | ok a =>
    refine ⟨.ok a, _, _, R', ?_, ?_, hle, hmatches, hsame⟩
    · rw [Evaluation.importing, hs]
    · rw [Evaluation.importing, ht]
  | tooDeep =>
    refine ⟨.tooDeep, _, _, R', ?_, ?_, hle, hmatches, hsame⟩
    · rw [Evaluation.importing, hs]
    · rw [Evaluation.importing, ht]

/-! ### Statements -/

/-- The value of an expression depends on look-ups only. -/
lemma isolated_valueOf (e : Expr) : Isolated (valueOf e) := by
  refine isolated_of_reads (fun s => state_valueOf e s) fun {R s t} h => ?_
  change (ofExcept (e.value s.env.lookup) s).1 = (ofExcept (e.value t.env.lookup) t).1
  rw [h.lookup_eq]
  cases e.value t.env.lookup <;> rfl

/-- The values of expressions depend on look-ups only. -/
lemma isolated_valuesOf (es : List Expr) : Isolated (valuesOf es) := by
  refine isolated_of_reads (fun s => state_valuesOf es s) fun {R s t} h => ?_
  change (ofExcept (Expr.values s.env.lookup es) s).1 = (ofExcept (Expr.values t.env.lookup es) t).1
  rw [h.lookup_eq]
  cases Expr.values t.env.lookup es <;> rfl

/-- The truth of a condition depends on look-ups only. -/
lemma isolated_truthOf (condition : Expr) : Isolated (truthOf condition) := by
  refine (isolated_valueOf condition).bind fun v => ?_
  split
  · exact isolated_pure _
  · exact isolated_fail _ _

/-- The selectors of a ruleset do not depend on the state. -/
lemma isolated_selectorsOf (enclosing : Enclosing) (header : List Token) (span : Span) :
    Isolated (selectorsOf enclosing header span) := by
  unfold selectorsOf
  split
  · exact isolated_pure _
  · exact isolated_fail _ _

/-- A declaration is isolated. -/
lemma isolated_declare (enclosing : Enclosing) (property : Token) (values : List Expr)
    (important : Bool) (span : Span) :
    Isolated (declare enclosing property values important span) := by
  refine isolated_ite (isolated_fail _ _) ?_
  exact (isolated_valuesOf values).bind fun _ => isolated_pure _

/-- An assignment is isolated. -/
lemma isolated_assign (name : String) (value : Expr) (isGlobal isDefault : Bool) :
    Isolated (assign name value isGlobal isDefault) := by
  refine ⟨restoring_assign name value isGlobal isDefault, fun R s t h hpaths => ?_⟩
  have hstore : ∀ v, Isolated (change fun env =>
      if isGlobal then env.defineGlobal name v else env.define name v) := by
    intro v
    cases isGlobal with
    | true => exact isolated_change (fun _ => rfl) fun h => h.defineGlobal name v
    | false => exact isolated_change (fun _ => rfl) fun h => h.define name v
  -- Whether the variable is bound already is the same in both states.
  have hrest : ∀ c : Bool, Isolated (if c then pure () else valueOf value >>= fun v =>
      change fun env => if isGlobal then env.defineGlobal name v else env.define name v) :=
    fun c => isolated_ite (isolated_pure ()) ((isolated_valueOf value).bind hstore)
  refine ((hrest _).alike h hpaths).of_eq rfl ?_
  rw [h.lookup_eq, h.lookupGlobal_eq]
  rfl

section Deeper

variable {setting : Setting} {deeper : Enclosing → List Stmt → Evaluation Output}

/-- Expands a mixin that was found. -/
def expandFound (deeper : Enclosing → List Stmt → Evaluation Output) (enclosing : Enclosing)
    (name : String) (args : List Expr) (span : Span) (b : MixinBinding) : Evaluation Output :=
  if args.length < b.mixin.params.length then
    fail (.missingArguments name b.mixin.params.length args.length) span
  else do
    let values ← valuesOf args
    within (fun env => bindParams b.mixin.params values (env.pushIn b.home))
      (deeper enclosing b.mixin.body)

/-- A mixin that is found and whose scope lives is expanded. -/
lemma expand_of_isAlive {name : String} {b : MixinBinding} (hb : s.env.lookupMixin name = some b)
    (halive : s.isAlive b.home = true) (enclosing : Enclosing) (args : List Expr) (span : Span) :
    expand deeper enclosing name args span s = expandFound deeper enclosing name args span b s := by
  simp only [expand, Bind.bind, Evaluation.bind, state, hb, Option.filter_some, halive, ↓reduceIte]
  rfl

/-- A mixin that is found is alive, so it is expanded. -/
lemma expand_of_lookupMixin (hs : s.env.WellFormed) {name : String} {b : MixinBinding}
    (hb : s.env.lookupMixin name = some b) (enclosing : Enclosing) (args : List Expr)
    (span : Span) :
    expand deeper enclosing name args span s = expandFound deeper enclosing name args span b s :=
  expand_of_isAlive hb (hs.isAlive_of_lookupMixin hb) enclosing args span

/-- A mixin that is not found is reported. -/
lemma expand_of_lookupMixin_eq_none {name : String} (hb : s.env.lookupMixin name = none)
    (enclosing : Enclosing) (args : List Expr) (span : Span) :
    expand deeper enclosing name args span s = fail (.undefinedMixin name) span s := by
  simp only [expand, Bind.bind, Evaluation.bind, state, hb, Option.filter_none]

/-- Two expansions of one mixin run alike if the scopes it was declared in match and the arguments
have the same values, whatever the innermost scopes are. -/
lemma runsAlike_expand (hdeeper : ∀ enclosing statements, Isolated (deeper enclosing statements))
    (hm : Environment.Matches R s.env t.env) (hpaths : s.paths = t.paths) {name : String}
    {b c : MixinBinding} (hb : s.env.lookupMixin name = some b)
    (hc : t.env.lookupMixin name = some c) (hmixin : b.mixin = c.mixin) (hhome : R b.home c.home)
    {args : List Expr} (hargs : Expr.values s.env.lookup args = Expr.values t.env.lookup args)
    (enclosing : Enclosing) (span : Span) :
    RunsAlike R s t (expand deeper enclosing name args span)
      (expand deeper enclosing name args span) := by
  refine RunsAlike.of_eq ?_ (expand_of_lookupMixin hm.left hb enclosing args span)
    (expand_of_lookupMixin hm.right hc enclosing args span)
  unfold expandFound
  rw [hmixin]
  split
  · exact ⟨_, s, t, R, rfl, rfl, le_refl R, hm, hpaths⟩
  · have hvalues : RunsAlike R s t (valuesOf args) (valuesOf args) := by
      refine ⟨(valuesOf args s).1, s, t, R, Prod.ext rfl (state_valuesOf args s),
        Prod.ext ?_ (state_valuesOf args t), le_refl R, hm, hpaths⟩
      change (ofExcept (Expr.values t.env.lookup args) t).1 =
        (ofExcept (Expr.values s.env.lookup args) s).1
      rw [hargs]
      cases Expr.values t.env.lookup args <;> rfl
    refine hvalues.bind fun values s' t' R' _ _ hle hm' hpaths' => ?_
    have hbody : RunsAlike (adjoin R' s'.env.scopes.size t'.env.scopes.size)
        { s' with env := bindParams c.mixin.params values (s'.env.pushIn b.home) }
        { t' with env := bindParams c.mixin.params values (t'.env.pushIn c.home) }
        (deeper enclosing c.mixin.body) (deeper enclosing c.mixin.body) :=
      (hdeeper enclosing c.mixin.body).alike
        ((hm'.pushIn (hle _ _ hhome)).bindParams c.mixin.params values) hpaths'
    exact hbody.within (le_adjoin R' _ _)

/-- The expansion of a mixin is isolated if the runs of its body are. -/
lemma isolated_expand (hdeeper : ∀ enclosing statements, Isolated (deeper enclosing statements))
    (enclosing : Enclosing) (name : String) (args : List Expr) (span : Span) :
    Isolated (expand deeper enclosing name args span) := by
  have hrestoring := fun enclosing statements => (hdeeper enclosing statements).restoring
  refine ⟨restoring_expand hrestoring enclosing name args span, fun R s t h hpaths => ?_⟩
  have hfound := h.rel_lookupMixin name
  rcases hb : s.env.lookupMixin name with _ | b
  all_goals
    rcases hc : t.env.lookupMixin name with _ | c
    all_goals rw [hb, hc] at hfound
  · exact ((isolated_fail (.undefinedMixin name) span).alike h hpaths).of_eq
      (expand_of_lookupMixin_eq_none hb enclosing args span)
      (expand_of_lookupMixin_eq_none hc enclosing args span)
  · cases hfound
  · cases hfound
  · cases hfound with
    | some hbc =>
      exact runsAlike_expand hdeeper h.toMatches hpaths hb hc hbc.1 hbc.2 (by rw [h.lookup_eq])
        enclosing span

/-- An import of a file that is being imported is reported as a cycle. -/
lemma importFile_of_isImporting {path : String} (h : s.isImporting path = true)
    (enclosing : Enclosing) (span : Span) :
    importFile setting deeper enclosing path span s = fail (.importCycle path) span s := by
  simp only [importFile, Bind.bind, Evaluation.bind, state, h, ↓reduceIte]

/-- An import of a file that is no sheet fails with what is wrong with it. -/
lemma importFile_of_error {path : String} (h : s.isImporting path = false) {fault : Fault}
    (hsheet : importedSheet setting path = .error fault) (enclosing : Enclosing) (span : Span) :
    importFile setting deeper enclosing path span s = fail fault span s := by
  simp only [importFile, Bind.bind, Evaluation.bind, state, h, hsheet, Bool.false_eq_true,
    ↓reduceIte]

/-- An import of a file that is a sheet runs its statements. -/
lemma importFile_of_ok {path : String} (h : s.isImporting path = false) {sheet : Sheet}
    (hsheet : importedSheet setting path = .ok sheet) (enclosing : Enclosing) (span : Span) :
    importFile setting deeper enclosing path span s =
      importing path span (deeper enclosing sheet) s := by
  simp only [importFile, Bind.bind, Evaluation.bind, state, h, hsheet, Bool.false_eq_true,
    ↓reduceIte]

/-- Two imports of one file run alike if the global scopes match. -/
lemma runsAlike_importFile
    (hdeeper : ∀ enclosing statements, Isolated (deeper enclosing statements))
    (hm : Environment.Matches R s.env t.env) (hpaths : s.paths = t.paths) (enclosing : Enclosing)
    (path : String) (span : Span) :
    RunsAlike R s t (importFile setting deeper enclosing path span)
      (importFile setting deeper enclosing path span) := by
  have himporting : t.isImporting path = s.isImporting path := by
    rw [Bool.eq_iff_iff, State.isImporting_iff, State.isImporting_iff, hpaths]
  have hfailed : ∀ fault, RunsAlike R s t (fail fault span : Evaluation Output) (fail fault span) :=
    fun fault => ⟨_, s, t, R, rfl, rfl, le_refl R, hm, hpaths⟩
  cases hs : s.isImporting path with
  | true =>
    rw [hs] at himporting
    exact (hfailed _).of_eq (importFile_of_isImporting hs enclosing span)
      (importFile_of_isImporting himporting enclosing span)
  | false =>
    rw [hs] at himporting
    cases hsheet : importedSheet setting path with
    | error fault =>
      exact (hfailed fault).of_eq (importFile_of_error hs hsheet enclosing span)
        (importFile_of_error himporting hsheet enclosing span)
    | ok sheet =>
      have hfile := (hdeeper enclosing sheet).importing hm hpaths path span
      exact hfile.of_eq (importFile_of_ok hs hsheet enclosing span)
        (importFile_of_ok himporting hsheet enclosing span)

/-- An import is isolated if the runs of its statements are. -/
lemma isolated_importFile
    (hdeeper : ∀ enclosing statements, Isolated (deeper enclosing statements))
    (enclosing : Enclosing) (path : String) (span : Span) :
    Isolated (importFile setting deeper enclosing path span) := by
  have hrestoring := fun enclosing statements => (hdeeper enclosing statements).restoring
  refine ⟨restoring_importFile hrestoring enclosing path span, fun R s t h hpaths => ?_⟩
  exact runsAlike_importFile hdeeper h.toMatches hpaths enclosing path span

/-- All ways to put statements together keep computations isolated. -/
lemma congruent_isolated : Congruent fun _ x _ => Isolated x where
  pure _ := isolated_pure
  bind _ _ _ _ _ _ hx hf := hx.bind hf
  within _ _ hx := hx.within
  valueOf := isolated_valueOf
  truthOf := isolated_truthOf
  selectorsOf := isolated_selectorsOf
  declare := isolated_declare
  assign := isolated_assign
  defineMixin _ := isolated_change (fun _ => rfl) fun h => h.defineMixin _

/-- Statements are isolated if the bodies of mixins and the files that they run are. -/
lemma isolated_runAll (hdeeper : ∀ enclosing statements, Isolated (deeper enclosing statements))
    (statements : List Stmt) (enclosing : Enclosing) :
    Isolated (runAll setting deeper enclosing statements) :=
  congruent_isolated.runAll deeper deeper (isolated_expand hdeeper) (isolated_importFile hdeeper)
    statements enclosing

end Deeper

/-- By induction on the depth, runs of statements are isolated. -/
lemma isolated_runUpTo (setting : Setting) (depth : Nat) (enclosing : Enclosing)
    (statements : List Stmt) : Isolated (runUpTo setting depth enclosing statements) := by
  induction depth generalizing enclosing statements with
  | zero => exact isolated_of_reads (fun _ => rfl) fun _ => rfl
  | succ depth ih => exact isolated_runAll ih statements enclosing

/-- The run of a statement at the top is isolated. -/
lemma isolated_runTop (setting : Setting) (stmt : Stmt) : Isolated (runTop setting stmt) := by
  have hdeeper := isolated_runUpTo setting setting.maxDepth
  exact congruent_isolated.run _ (runUpTo setting setting.maxDepth) (isolated_expand hdeeper)
    (isolated_importFile hdeeper) stmt none

/-! ### Sound states -/

/-- The environment is well formed, and the innermost scope exists. -/
structure State.Sound (s : State) : Prop where
  env : s.env.WellFormed
  current_lt : s.env.stack.current < s.env.scopes.size

/-- A state that is related to any other one is sound. -/
lemma State.sound_of_related {R : ScopeId → ScopeId → Prop}
    (h : Environment.Related R s.env t.env) : s.Sound :=
  ⟨h.left, (h.scopes.lt_size h.current).1⟩

/-- A sound state is related to itself along the scopes that exist. -/
lemma State.Sound.related_self (h : s.Sound) :
    Environment.Related (fun i j => i = j ∧ i < s.env.scopes.size) s.env s.env :=
  h.env.related_self h.current_lt

/-- An isolated computation keeps a state sound, whatever its outcome. -/
lemma Isolated.sound {x : Evaluation α} (hx : Isolated x) (hs : s.Sound) {o : Outcome α}
    (h : x s = (o, t)) : t.Sound := by
  obtain ⟨o', u, v, R', hu, hv, hle, hm, -⟩ := hx.alike hs.related_self rfl
  obtain ⟨-, rfl⟩ := Prod.mk.inj (hu.symm.trans h)
  exact State.sound_of_related (hx.restoring.related hs.related_self hu hv hle hm)

/-- A run leaves a well-formed environment behind, whatever its outcome. -/
lemma wellFormed_runAll (setting : Setting) (depth : Nat) (enclosing : Enclosing)
    (statements : List Stmt) (hs : s.env.WellFormed)
    (hcurrent : s.env.stack.current < s.env.scopes.size) :
    (runAll setting (runUpTo setting depth) enclosing statements s).2.env.WellFormed := by
  have hisolated : Isolated (runAll setting (runUpTo setting depth) enclosing statements) :=
    isolated_runAll (isolated_runUpTo setting depth) statements enclosing
  have hsound : s.Sound := ⟨hs, hcurrent⟩
  exact (hisolated.sound hsound rfl).env

/-- The expansion of a mixin has the same outcome in two states that agree on the chain of the scope
it was declared in and on the values of the arguments, and it leaves them in agreement on the chain.
An import has the same outcome in two states that agree on the global scope, and it leaves them in
agreement on it.  The states are importing the same files, and they can differ in all other
scopes. -/
theorem outcome_eq_of_agreeAt (setting : Setting) (depth : Nat) (enclosing : Enclosing)
    (s t : State) (hs : s.env.WellFormed) (ht : t.env.WellFormed) (hpaths : s.paths = t.paths) :
    (∀ name args span b c, s.env.lookupMixin name = some b → t.env.lookupMixin name = some c →
      b.mixin = c.mixin → Expr.values s.env.lookup args = Expr.values t.env.lookup args →
      List.Forall₂ (s.env.scopes.AgreeAt t.env.scopes) (s.env.scopes.chain b.home)
        (t.env.scopes.chain c.home) →
      ∃ o s' t',
        run setting (runUpTo setting depth) enclosing (.expand name args span) s = (o, s') ∧
        run setting (runUpTo setting depth) enclosing (.expand name args span) t = (o, t') ∧
        List.Forall₂ (s'.env.scopes.AgreeAt t'.env.scopes) (s.env.scopes.chain b.home)
          (t.env.scopes.chain c.home)) ∧
    ∀ path span, s.env.scopes.AgreeAt t.env.scopes s.env.stack.root t.env.stack.root →
      ∃ o s' t',
        run setting (runUpTo setting depth) enclosing (.importFile path span) s = (o, s') ∧
        run setting (runUpTo setting depth) enclosing (.importFile path span) t = (o, t') ∧
        s'.env.scopes.AgreeAt t'.env.scopes s.env.stack.root t.env.stack.root := by
  have hdeeper := isolated_runUpTo setting depth
  constructor
  · intro name args span b c hb hc hmixin hargs hchains
    have hhome := (hs.home_of_lookupMixin hb).2
    have hhome' := (ht.home_of_lookupMixin hc).2
    -- the relation pairs the scopes of the two chains and no others
    obtain ⟨R, hR, hbc, hroot, -⟩ := Environment.exists_matched hs ht hchains hhome hhome'
    obtain ⟨o, s', t', R', hrun, hrun', hle, hm, -⟩ :=
      runsAlike_expand hdeeper ⟨hs, ht, hR, hroot⟩ hpaths hb hc hmixin hbc hargs enclosing span
    have hrelated := Environment.forall₂_chain hs ht hR hbc
    refine ⟨o, s', t', ?_, ?_, hrelated.imp fun i j hij => hm.scopes.agreeAt (hle i j hij)⟩
    · rw [run, hrun]
    · rw [run, hrun']
  · intro path span hglobal
    have hchains : List.Forall₂ (s.env.scopes.AgreeAt t.env.scopes)
        (s.env.scopes.chain s.env.stack.root) (t.env.scopes.chain t.env.stack.root) := by
      rw [hs.chain_root, ht.chain_root]
      exact .cons hglobal .nil
    obtain ⟨R, hR, hroot, -, -⟩ := Environment.exists_matched hs ht hchains hs.root_lt ht.root_lt
    obtain ⟨o, s', t', R', hrun, hrun', hle, hm, -⟩ :=
      runsAlike_importFile hdeeper ⟨hs, ht, hR, hroot⟩ hpaths enclosing path span
    refine ⟨o, s', t', ?_, ?_, hm.scopes.agreeAt (hle _ _ hroot)⟩
    · rw [run, hrun]
    · rw [run, hrun']

/-- Every import gives `$d: $c`. -/
def paintSetting : Setting where
  load _ := .ok "$d:$c;"
  keywords := .builtin

/-- `x: $c` -/
def paintMixin : Mixin :=
  ⟨"m", [], [.declare ⟨.property, "x", .point 0⟩ [.var "$c" (.point 0)] false (.point 0)]⟩

/-- The state after `$c: red; @mixin m{ x: $c }`. -/
def paintedState : State :=
  (runAll paintSetting (runUpTo paintSetting 1) none
    [.assign ⟨"$c", .point 0⟩ (.text "red" (.point 0)) false false (.point 0),
      .mixin "m" [] ⟨paintMixin.body, .point 0⟩ (.point 0)] .initial).2

/-- Above the global scope stands a scope that binds `$c` to blue. -/
def blueState : State := ⟨paintedState.env.push.define "$c" (.text "blue"), []⟩

/-- Above the global scope a scope was left, and another one binds `$c` to green. -/
def greenState : State := ⟨paintedState.env.push.pop.push.define "$c" (.text "green"), []⟩

/-- The mixin and the import see the `$c` of the global scope from both places. -/
theorem outcome_eq_of_agreeAt_paintedState :
    (run paintSetting (runUpTo paintSetting 1) (some ["A"]) (.expand "m" [] (.point 0))
      blueState).1 = .ok ⟨["x:red;"], []⟩ ∧
    (run paintSetting (runUpTo paintSetting 1) (some ["A"]) (.expand "m" [] (.point 0))
      greenState).1 = .ok ⟨["x:red;"], []⟩ ∧
    (run paintSetting (runUpTo paintSetting 1) none (.importFile "f" (.point 0)) blueState).1 =
      (run paintSetting (runUpTo paintSetting 1) none (.importFile "f" (.point 0))
        greenState).1 := by
  have hpainted : paintedState.env.WellFormed :=
    wellFormed_runAll paintSetting 1 none _ Environment.wellFormed_initial (by decide)
  have hpushed : paintedState.env.push.WellFormed := hpainted.pushIn (by decide +kernel)
  have hleft : paintedState.env.push.pop.WellFormed := hpushed.withStack rfl
  have hagain : paintedState.env.push.pop.push.WellFormed := hleft.pushIn (by decide +kernel)
  have hblue : blueState.env.WellFormed := hpushed.define _ _
  have hgreen : greenState.env.WellFormed := hagain.define _ _
  have hblueMixin : blueState.env.lookupMixin "m" = some ⟨paintMixin, 0⟩ := by cbv
  have hgreenMixin : greenState.env.lookupMixin "m" = some ⟨paintMixin, 0⟩ := by cbv
  have hsame : blueState.env.scopes[0]? = greenState.env.scopes[0]? := rfl
  obtain ⟨x, hx⟩ : ∃ x, blueState.env.scopes[0]? = some x := ⟨_, rfl⟩
  have hglobal : blueState.env.scopes.AgreeAt greenState.env.scopes 0 0 :=
    ⟨x, x, hx, hsame.symm.trans hx, fun _ => rfl, fun _ => rfl⟩
  have hchains : List.Forall₂ (blueState.env.scopes.AgreeAt greenState.env.scopes)
      (blueState.env.scopes.chain 0) (greenState.env.scopes.chain 0) := by
    rw [show blueState.env.scopes.chain 0 = [0] by cbv,
      show greenState.env.scopes.chain 0 = [0] by cbv]
    exact .cons hglobal .nil
  have hred : (run paintSetting (runUpTo paintSetting 1) (some ["A"]) (.expand "m" [] (.point 0))
      blueState).1 = .ok ⟨["x:red;"], []⟩ := by cbv
  obtain ⟨o, s', t', hs, ht, -⟩ := (outcome_eq_of_agreeAt paintSetting 1 (some ["A"]) blueState
    greenState hblue hgreen rfl).1 "m" [] (.point 0) _ _ hblueMixin hgreenMixin rfl rfl hchains
  obtain ⟨p, u, v, hu, hv, -⟩ := (outcome_eq_of_agreeAt paintSetting 1 none blueState greenState
    hblue hgreen rfl).2 "f" (.point 0) hglobal
  refine ⟨hred, ?_, ?_⟩
  · rw [← hred, hs, ht]
  · rw [hu, hv]

end Evaluation

end StyleSheet

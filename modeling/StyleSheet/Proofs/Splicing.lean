import StyleSheet.Proofs.Scopes.Isolation

/-!
# Imports as splices

Where only the global scope has been entered, an import that succeeds does what the statements of
its file would do in its place: the same output, the same state afterwards
(`runAll_eq_of_run_importFile`).

The two runs compare the file while it is being imported with the file in place.  They go through
the same environments and differ in the imports under way, of which the run in place has fewer
(`Covers`).  Only two steps look at these: an import fails if its file is under way already, and
a mixin is expanded only if the scope that it was declared in is held by some stack.  The first can
only go better with fewer imports.  For the second, the stack that waits for the file holds the
global scope alone, and this one is held anyway.  So what succeeds in the import succeeds in place
(`Splices`).  The converse fails: a file that imports itself under a condition can succeed in place
and be an import cycle otherwise.
-/

namespace StyleSheet.Evaluation

variable {α β : Type} {s t s' t' : State}

/-! ### Computations that do not see the imports under way -/

/-- Reads and changes the environment alone. -/
def Local (x : Evaluation α) : Prop :=
  ∀ env p q, ∃ o env', x ⟨env, p⟩ = (o, ⟨env', p⟩) ∧ x ⟨env, q⟩ = (o, ⟨env', q⟩)

/-- Doing nothing is local. -/
lemma local_pure (a : α) : Local (pure a) := fun env _ _ => ⟨.ok a, env, rfl, rfl⟩

/-- A failure is local. -/
lemma local_fail (fault : Fault) (span : Span) : Local (fail fault span : Evaluation α) :=
  fun env _ _ => ⟨.failed (.raised fault span), env, rfl, rfl⟩

/-- A result that is known is local. -/
lemma local_ofExcept (r : Except EvalError α) : Local (ofExcept r) := by
  cases r with
  | ok a => exact local_pure a
  | error e => exact fun env _ _ => ⟨.failed e, env, rfl, rfl⟩

/-- A change of the scopes is local. -/
lemma local_change (f : Environment → Environment) : Local (change f) :=
  fun env _ _ => ⟨.ok (), f env, rfl, rfl⟩

/-- Local computations that follow one another are local. -/
lemma Local.bind {x : Evaluation α} {f : α → Evaluation β} (hx : Local x)
    (hf : ∀ a, Local (f a)) : Local (x >>= f) := by
  intro env p q
  change ∃ o env', Evaluation.bind x f ⟨env, p⟩ = (o, ⟨env', p⟩) ∧
    Evaluation.bind x f ⟨env, q⟩ = (o, ⟨env', q⟩)
  obtain ⟨o, env', hp, hq⟩ := hx env p q
  rw [Evaluation.bind, Evaluation.bind, hp, hq]
  cases o with
  | ok a => exact hf a env' p q
  | failed e => exact ⟨.failed e, env', rfl, rfl⟩
  | tooDeep => exact ⟨.tooDeep, env', rfl, rfl⟩

/-- What is read of the state is the environment. -/
lemma local_state_bind {f : Environment → Evaluation α} (hf : ∀ env, Local (f env)) :
    Local (state >>= fun s => f s.env) :=
  fun env p q => hf env env p q

/-- A choice is local if both of its sides are. -/
lemma local_ite {c : Prop} [Decidable c] {x y : Evaluation α} (hx : Local x) (hy : Local y) :
    Local (if c then x else y) :=
  iteInduction (fun _ => hx) fun _ => hy

/-- The value of an expression is local. -/
lemma local_valueOf (e : Expr) : Local (valueOf e) :=
  local_state_bind fun env => local_ofExcept (e.value env.lookup)

/-- The values of expressions are local. -/
lemma local_valuesOf (es : List Expr) : Local (valuesOf es) :=
  local_state_bind fun env => local_ofExcept (Expr.values env.lookup es)

/-- The truth of a condition is local. -/
lemma local_truthOf (condition : Expr) : Local (truthOf condition) := by
  refine (local_valueOf condition).bind fun v => ?_
  split
  · exact local_pure _
  · exact local_fail _ _

/-- The selectors of a ruleset are local. -/
lemma local_selectorsOf (enclosing : Enclosing) (header : List Token) (span : Span) :
    Local (selectorsOf enclosing header span) := by
  unfold selectorsOf
  split
  · exact local_pure _
  · exact local_fail _ _

/-- A declaration is local. -/
lemma local_declare (enclosing : Enclosing) (property : Token) (values : List Expr)
    (important : Bool) (span : Span) :
    Local (declare enclosing property values important span) := by
  refine local_ite (local_fail _ _) ?_
  exact (local_valuesOf values).bind fun _ => local_pure _

/-- An assignment is local. -/
lemma local_assign (name : String) (value : Expr) (isGlobal isDefault : Bool) :
    Local (assign name value isGlobal isDefault) := by
  refine local_state_bind (f := fun env =>
    if isDefault && (if isGlobal then env.lookupGlobal name else env.lookup name).isSome then
      pure ()
    else valueOf value >>= fun v => change fun env =>
      if isGlobal then env.defineGlobal name v else env.define name v) fun env => ?_
  exact local_ite (local_pure ()) ((local_valueOf value).bind fun _ => local_change _)

/-! ### States of the two runs -/

/-- The scopes on the stacks that wait for an import. -/
def State.waiting (s : State) : List ScopeId := s.pending.flatMap (·.importer.toList)

/-- The states have one environment.  The second has fewer imports under way, and the stacks that
wait for the others hold nothing new but the global scope. -/
structure Covers (s t : State) : Prop where
  env : s.env = t.env
  paths : t.paths ⊆ s.paths
  waiting : s.waiting ⊆ s.env.stack.root :: t.waiting

namespace Covers

/-- What is not being imported in the larger state is not in the smaller one. -/
lemma isImporting_eq_false (h : Covers s t) {path : String} (hs : s.isImporting path = false) :
    t.isImporting path = false := by
  rw [← Bool.not_eq_true, State.isImporting_iff] at hs ⊢
  exact fun hpath => hs (h.paths hpath)

/-- A scope that lives in the first state lives in the second. -/
lemma isAlive (h : Covers s t) {id : ScopeId} (hs : s.isAlive id = true) :
    t.isAlive id = true := by
  have hholders : s.holders ⊆ t.holders := by
    intro holder hholder
    rcases List.mem_append.mp hholder with hstack | hwaiting
    · rw [h.env] at hstack
      exact List.mem_append_left _ hstack
    · rcases List.mem_cons.mp (h.waiting hwaiting) with rfl | hwaiting
      · refine List.mem_append_left _ ?_
        rw [h.env]
        exact List.mem_append_right _ List.mem_cons_self
      · exact List.mem_append_right _ hwaiting
  obtain ⟨holder, hholder, hid⟩ := List.any_eq_true.mp hs
  rw [h.env] at hid
  exact List.any_eq_true.mpr ⟨holder, hholders hholder, hid⟩

/-- States stay covered when both get one environment over the same global scope. -/
lemma withEnv (h : Covers s t) {e f : Environment} (hef : e = f)
    (hroot : e.stack.root = s.env.stack.root) :
    Covers { s with env := e } { t with env := f } := by
  refine ⟨hef, h.paths, ?_⟩
  have hwaiting := h.waiting
  rw [← hroot] at hwaiting
  exact hwaiting

/-- An import is started in both. -/
lemma beginImport (h : Covers s t) (path : String) :
    Covers (s.beginImport path) (t.beginImport path) := by
  obtain ⟨env, p⟩ := s
  obtain ⟨_, q⟩ := t
  obtain rfl : env = _ := h.env
  refine ⟨rfl, List.cons_subset_cons path h.paths, ?_⟩
  intro id hid
  rcases List.mem_append.mp hid with himporter | hwaiting
  · exact List.mem_cons_of_mem _ (List.mem_append_left _ himporter)
  · rcases List.mem_cons.mp (h.waiting hwaiting) with rfl | hwaiting
    · exact List.mem_cons_self
    · exact List.mem_cons_of_mem _ (List.mem_append_right _ hwaiting)

/-- The stacks are what they were. -/
lemma of_sameStacks (h : Covers s t) (hs : s.SameStacks s') (ht : t.SameStacks t')
    (henv : s'.env = t'.env) : Covers s' t' := by
  refine ⟨henv, ?_, ?_⟩
  · rw [State.paths, State.paths, hs.2, ht.2]
    exact h.paths
  · rw [State.waiting, State.waiting, hs.1, hs.2, ht.2]
    exact h.waiting

/-- A file that is being imported where only the global scope has been entered. -/
lemma of_inner_eq_nil (hinner : s.env.stack.inner = []) (path : String) :
    Covers (s.beginImport path) s := by
  obtain ⟨⟨scopes, root, inner⟩, pending⟩ := s
  obtain rfl : inner = [] := hinner
  exact ⟨rfl, List.subset_cons_self _ _, List.Subset.refl _⟩

end Covers

/-! ### What succeeds in the import succeeds in place -/

/-- From covered states, the second computation has each success of the first, in the same
environment. -/
structure Splices (x y : Evaluation α) : Prop where
  left : Restoring x
  right : Restoring y
  ok : ∀ ⦃s t a s'⦄, Covers s t → x s = (.ok a, s') → ∃ t', y t = (.ok a, t') ∧ s'.env = t'.env

/-- A success comes from two successes. -/
lemma bind_eq_ok {x : Evaluation α} {f : α → Evaluation β} {b : β}
    (h : (x >>= f) s = (.ok b, t)) : ∃ a u, x s = (.ok a, u) ∧ f a u = (.ok b, t) := by
  change Evaluation.bind x f s = (.ok b, t) at h
  unfold Evaluation.bind at h
  split at h
  · rename_i a u hx
    exact ⟨a, u, hx, h⟩
  · cases h
  · cases h

/-- A success in a scope of its own is one of the computation there. -/
lemma within_eq_ok {enter : Environment → Environment} {x : Evaluation α} {a : α}
    (h : within enter x s = (.ok a, t)) :
    ∃ u, x { s with env := enter s.env } = (.ok a, u) ∧ t = { u with env := u.env.pop } := by
  rcases hx : x { s with env := enter s.env } with ⟨o, u⟩
  rw [within, hx] at h
  obtain ⟨rfl, rfl⟩ := Prod.mk.inj h
  exact ⟨u, rfl, rfl⟩

/-- A success of an import is one of the run of its file. -/
lemma importing_eq_ok {path : String} {span : Span} {x : Evaluation α} {a : α}
    (h : importing path span x s = (.ok a, t)) :
    ∃ u, x (s.beginImport path) = (.ok a, u) ∧ t = u.endImport := by
  rcases hx : x (s.beginImport path) with ⟨_ | _ | _, u⟩
  all_goals
    rw [Evaluation.importing, hx] at h
    cases h
  exact ⟨u, rfl, rfl⟩

/-- Computations that follow one another splice if both do. -/
lemma Splices.bind {x y : Evaluation α} {f g : α → Evaluation β} (hx : Splices x y)
    (hf : ∀ a, Splices (f a) (g a)) : Splices (x >>= f) (y >>= g) := by
  refine ⟨hx.left.bind fun a => (hf a).left, hx.right.bind fun a => (hf a).right, ?_⟩
  intro s t b s'' h hrun
  obtain ⟨a, s', hxs, hfs⟩ := bind_eq_ok hrun
  obtain ⟨t', hyt, henv⟩ := hx.ok h hxs
  have hs := hx.left s
  rw [hxs] at hs
  have ht := hx.right t
  rw [hyt] at ht
  obtain ⟨t'', hgt, henv'⟩ := (hf a).ok (h.of_sameStacks hs ht henv) hfs
  refine ⟨t'', ?_, henv'⟩
  change Evaluation.bind y g t = _
  rw [Evaluation.bind, hyt]
  exact hgt

/-- Computations in scopes of their own splice. -/
lemma Splices.within {enter : Environment → Environment} {x y : Evaluation α} (hx : Splices x y)
    (henter : ∀ e, (enter e).stack.leave = e.stack) :
    Splices (within enter x) (within enter y) := by
  refine ⟨hx.left.within henter, hx.right.within henter, ?_⟩
  intro s t a s' h hrun
  obtain ⟨u, hxs, rfl⟩ := within_eq_ok hrun
  have hroot : (enter s.env).stack.leave.root = s.env.stack.root := by rw [henter]
  have hentered := h.withEnv (congrArg enter h.env) hroot
  obtain ⟨v, hyt, henv⟩ := hx.ok hentered hxs
  refine ⟨{ v with env := v.env.pop }, ?_, congrArg Environment.pop henv⟩
  rw [Evaluation.within, hyt]

/-- Imports splice if the runs of their files do. -/
lemma Splices.importing {x y : Evaluation α} (hx : Splices x y) (path : String) (span : Span) :
    Splices (importing path span x) (importing path span y) := by
  refine ⟨hx.left.importing path span, hx.right.importing path span, ?_⟩
  intro s t a s' h hrun
  obtain ⟨u, hxs, rfl⟩ := importing_eq_ok hrun
  obtain ⟨v, hyt, henv⟩ := hx.ok (h.beginImport path) hxs
  refine ⟨v.endImport, ?_, ?_⟩
  · rw [Evaluation.importing, hyt]
  · rw [hx.left.endImport_eq hxs, hx.right.endImport_eq hyt, henv, h.env]

/-- A local computation splices. -/
lemma splices_of_local {x : Evaluation α} (hx : Local x) (hrestoring : Restoring x) :
    Splices x x := by
  refine ⟨hrestoring, hrestoring, ?_⟩
  rintro ⟨env, p⟩ ⟨_, q⟩ a s' h hrun
  obtain rfl : env = _ := h.env
  obtain ⟨o, env', hp, hq⟩ := hx env p q
  obtain ⟨rfl, rfl⟩ := Prod.mk.inj (hp.symm.trans hrun)
  exact ⟨⟨env', q⟩, hq, rfl⟩

/-- All ways to put statements together splice. -/
lemma congruent_splices : Congruent fun _ x y => Splices x y where
  pure _ a := splices_of_local (local_pure a) (restoring_pure a)
  bind _ _ _ _ _ _ hx hf := hx.bind hf
  within _ _ hx := hx.within fun _ => rfl
  valueOf e := splices_of_local (local_valueOf e) (restoring_valueOf e)
  truthOf condition := splices_of_local (local_truthOf condition) (restoring_truthOf condition)
  selectorsOf enclosing header span :=
    splices_of_local (local_selectorsOf enclosing header span)
      (restoring_selectorsOf enclosing header span)
  declare enclosing property values important span :=
    splices_of_local (local_declare enclosing property values important span)
      (restoring_declare enclosing property values important span)
  assign name value isGlobal isDefault :=
    splices_of_local (local_assign name value isGlobal isDefault)
      (restoring_assign name value isGlobal isDefault)
  defineMixin _ := splices_of_local (local_change _) (restoring_change fun _ => rfl)

section Deeper

variable {setting : Setting} {deeper deeper' : Enclosing → List Stmt → Evaluation Output}

/-- A mixin that is expanded was found, and its scope lives. -/
lemma lookupMixin_of_expand_ok {enclosing : Enclosing} {name : String} {args : List Expr}
    {span : Span} {out : Output} (h : expand deeper enclosing name args span s = (.ok out, t)) :
    ∃ b, s.env.lookupMixin name = some b ∧ s.isAlive b.home = true := by
  cases hfound : (s.env.lookupMixin name).filter fun b => s.isAlive b.home with
  | none =>
    simp only [expand, Bind.bind, Evaluation.bind, state, hfound] at h
    cases h
  | some b => exact ⟨b, Option.filter_eq_some_iff.mp hfound⟩

/-- A file that is imported is not being imported, and it can be read. -/
lemma importing_of_importFile_ok {enclosing : Enclosing} {path : String} {span : Span}
    {out : Output} (h : importFile setting deeper enclosing path span s = (.ok out, t)) :
    s.isImporting path = false ∧ ∃ sheet, importedSheet setting path = .ok sheet ∧
      importing path span (deeper enclosing sheet) s = (.ok out, t) := by
  cases hs : s.isImporting path with
  | true =>
    rw [importFile_of_isImporting hs] at h
    cases h
  | false =>
    cases hsheet : importedSheet setting path with
    | error fault =>
      rw [importFile_of_error hs hsheet] at h
      cases h
    | ok sheet =>
      rw [importFile_of_ok hs hsheet] at h
      exact ⟨rfl, sheet, rfl, h⟩

/-- Expansions of one mixin splice if the runs of its body do. -/
lemma splices_expandFound
    (hdeeper : ∀ enclosing statements,
      Splices (deeper enclosing statements) (deeper' enclosing statements))
    (enclosing : Enclosing) (name : String) (args : List Expr) (span : Span) (b : MixinBinding) :
    Splices (expandFound deeper enclosing name args span b)
      (expandFound deeper' enclosing name args span b) := by
  unfold expandFound
  split
  · exact splices_of_local (local_fail _ _) (restoring_fail _ _)
  · refine (splices_of_local (local_valuesOf args) (restoring_valuesOf args)).bind fun values => ?_
    refine (hdeeper enclosing b.mixin.body).within fun e => ?_
    rw [stack_bindParams]
    rfl

/-- Expansions of mixins splice if the runs of their bodies do. -/
lemma splices_expand
    (hdeeper : ∀ enclosing statements,
      Splices (deeper enclosing statements) (deeper' enclosing statements))
    (enclosing : Enclosing) (name : String) (args : List Expr) (span : Span) :
    Splices (expand deeper enclosing name args span) (expand deeper' enclosing name args span) := by
  refine ⟨restoring_expand (fun e l => (hdeeper e l).left) enclosing name args span,
    restoring_expand (fun e l => (hdeeper e l).right) enclosing name args span, ?_⟩
  intro s t out s' h hrun
  obtain ⟨b, hb, halive⟩ := lookupMixin_of_expand_ok hrun
  rw [expand_of_isAlive hb halive] at hrun
  rw [h.env] at hb
  rw [expand_of_isAlive hb (h.isAlive halive)]
  exact (splices_expandFound hdeeper enclosing name args span b).ok h hrun

/-- Imports of a file splice if the runs of its statements do. -/
lemma splices_importFile
    (hdeeper : ∀ enclosing statements,
      Splices (deeper enclosing statements) (deeper' enclosing statements))
    (enclosing : Enclosing) (path : String) (span : Span) :
    Splices (importFile setting deeper enclosing path span)
      (importFile setting deeper' enclosing path span) := by
  refine ⟨restoring_importFile (fun e l => (hdeeper e l).left) enclosing path span,
    restoring_importFile (fun e l => (hdeeper e l).right) enclosing path span, ?_⟩
  intro s t out s' h hrun
  obtain ⟨hpath, sheet, hsheet, himporting⟩ := importing_of_importFile_ok hrun
  rw [importFile_of_ok (h.isImporting_eq_false hpath) hsheet]
  exact ((hdeeper enclosing sheet).importing path span).ok h himporting

/-- Runs of statements splice if the deeper runs do. -/
lemma splices_runAll
    (hdeeper : ∀ enclosing statements,
      Splices (deeper enclosing statements) (deeper' enclosing statements))
    (statements : List Stmt) (enclosing : Enclosing) :
    Splices (runAll setting deeper enclosing statements)
      (runAll setting deeper' enclosing statements) :=
  congruent_splices.runAll deeper deeper' (splices_expand hdeeper) (splices_importFile hdeeper)
    statements enclosing

end Deeper

/-- In place there is room for one more level. -/
lemma splices_runUpTo (setting : Setting) (depth : Nat) (enclosing : Enclosing)
    (statements : List Stmt) :
    Splices (runUpTo setting depth enclosing statements)
      (runUpTo setting (depth + 1) enclosing statements) := by
  induction depth generalizing enclosing statements with
  | zero =>
    refine ⟨restoring_tooDeep, restoring_runUpTo setting 1 enclosing statements, ?_⟩
    intro s t out s' _ hrun
    cases hrun
  | succ depth ih => exact splices_runAll ih statements enclosing

/-- An import that succeeds where only the global scope has been entered does what the statements of
its file do in its place, in output and final state.  An import of a file without statements changes
nothing, and it succeeds unless the file is being imported or there is no level left for it. -/
theorem runAll_eq_of_run_importFile (setting : Setting) (depth : Nat) (enclosing : Enclosing)
    (path source : String) (sheet : Sheet) (span : Span) (s : State)
    (hload : setting.load path = .ok source)
    (hread : Sheet.ofText setting.keywords source = .ok sheet) :
    (s.env.stack.inner = [] → ∀ out t,
      run setting (runUpTo setting depth) enclosing (.importFile path span) s = (.ok out, t) →
      runAll setting (runUpTo setting depth) enclosing sheet s = (.ok out, t)) ∧
    (sheet = [] →
      (run setting (runUpTo setting depth) enclosing (.importFile path span) s).2 = s ∧
      (s.isImporting path = false → 0 < depth →
        (run setting (runUpTo setting depth) enclosing (.importFile path span) s).1 =
          .ok .empty)) := by
  have hsheet : importedSheet setting path = .ok sheet := by
    rw [importedSheet, hload]
    simp only [hread]
  constructor
  · intro hinner out t hrun
    rw [run] at hrun
    obtain ⟨-, sheet', hsheet', himporting⟩ := importing_of_importFile_ok hrun
    obtain rfl : sheet = sheet' := Except.ok.inj (hsheet.symm.trans hsheet')
    obtain ⟨u, hfile, rfl⟩ := importing_eq_ok himporting
    cases depth with
    | zero => cases hfile
    | succ depth =>
      -- in its place the file has one level more, and it is run above the same global scope
      have hsplices : Splices (runAll setting (runUpTo setting depth) enclosing sheet)
          (runAll setting (runUpTo setting (depth + 1)) enclosing sheet) :=
        splices_runAll (splices_runUpTo setting depth) sheet enclosing
      obtain ⟨t, hplace, henv⟩ := hsplices.ok (.of_inner_eq_nil hinner path) hfile
      have hrestored := hsplices.right s
      rw [hplace] at hrestored
      -- the scopes are the same at the end, and both runs restore the stacks they started with
      have hend := (restoring_runUpTo setting (depth + 1) enclosing sheet).endImport_eq hfile
      obtain ⟨hstack, hpending⟩ := hrestored
      rw [hplace, hend, henv, ← hstack, ← hpending]
  · rintro rfl
    cases hpath : s.isImporting path with
    | true =>
      rw [run, importFile_of_isImporting hpath]
      exact ⟨rfl, fun h => absurd h Bool.noConfusion⟩
    | false =>
      rw [run, importFile_of_ok hpath hsheet]
      cases depth with
      | zero => exact ⟨rfl, fun _ h => absurd h (Nat.lt_irrefl 0)⟩
      | succ depth => exact ⟨rfl, fun _ _ => rfl⟩

/-- A file that imports another one. -/
def themeText : String := "$c:red;@mixin m\x7bx:$c;\x7d@import \"rules\";"

/-- A file that imports itself as long as `$again` holds. -/
def againText : String := "@if $again\x7b$again:false !global;@import \"again\";\x7d"

def themeSetting : Setting where
  load := .ofTable ⟨[("theme", themeText), ("rules", "A\x7b@include m;\x7d"),
    ("empty", "// nothing"), ("again", againText)]⟩
  keywords := .builtin

/-- A file `main` is being imported from a scope above the global one. -/
def themeState : State := State.beginImport ⟨Environment.initial.push, []⟩ "main"

/-- The mixin of the theme is expanded in the file that the theme imports, in both runs. -/
theorem runAll_eq_of_run_importFile_themeState :
    (∃ sheet t, Sheet.ofText .builtin themeText = .ok sheet ∧
      run themeSetting (runUpTo themeSetting 3) none (.importFile "theme" (.point 0)) themeState =
        (.ok ⟨[], ["A\x7bx:red;\x7d"]⟩, t) ∧
      runAll themeSetting (runUpTo themeSetting 3) none sheet themeState =
        (.ok ⟨[], ["A\x7bx:red;\x7d"]⟩, t)) ∧
    run themeSetting (runUpTo themeSetting 3) none (.importFile "empty" (.point 0)) themeState =
      (.ok .empty, themeState) := by
  have hout : (run themeSetting (runUpTo themeSetting 3) none (.importFile "theme" (.point 0))
      themeState).1 = .ok ⟨[], ["A\x7bx:red;\x7d"]⟩ := by decide +kernel
  have hok : (Sheet.ofText .builtin themeText).isOk = true := by decide +kernel
  obtain ⟨sheet, hread⟩ : ∃ sheet, Sheet.ofText .builtin themeText = .ok sheet := by
    cases hread : Sheet.ofText .builtin themeText with
    | ok sheet => exact ⟨sheet, rfl⟩
    | error e =>
      rw [hread] at hok
      cases hok
  have hnothing : Sheet.ofText .builtin "// nothing" = .ok [] := by cbv
  constructor
  · obtain ⟨hplace, -⟩ := runAll_eq_of_run_importFile themeSetting 3 none "theme" themeText sheet
      (.point 0) themeState rfl hread
    rcases htheme : run themeSetting (runUpTo themeSetting 3) none
      (.importFile "theme" (.point 0)) themeState with ⟨out, t⟩
    rw [htheme] at hout
    obtain rfl : out = .ok ⟨[], ["A\x7bx:red;\x7d"]⟩ := hout
    exact ⟨sheet, t, hread, rfl, hplace rfl _ t htheme⟩
  · obtain ⟨-, hempty⟩ := runAll_eq_of_run_importFile themeSetting 3 none "empty" "// nothing" []
      (.point 0) themeState rfl hnothing
    obtain ⟨hstate, hsuccess⟩ := hempty rfl
    have hout := hsuccess (by decide) (by decide)
    rcases hrun : run themeSetting (runUpTo themeSetting 3) none
      (.importFile "empty" (.point 0)) themeState with ⟨out, t⟩
    rw [hrun] at hstate hout
    rw [← hstate, ← hout]

def againState : State := ⟨Environment.initial.define "$again" (.bool true), []⟩

-- In place, the file is not being imported when it imports itself.
example :
    (importedSheet themeSetting "again").toOption.map (fun sheet =>
      (runAll themeSetting (runUpTo themeSetting 3) none sheet againState).1) =
        some (.ok .empty) ∧
    (run themeSetting (runUpTo themeSetting 3) none (.importFile "again" (.point 0))
      againState).1 =
        .failed (.inImport "again" (.raised (.importCycle "again") ⟨32, 47⟩) (.point 0)) := by
  decide +kernel

end StyleSheet.Evaluation

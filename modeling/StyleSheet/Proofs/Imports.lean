import StyleSheet.Proofs.Loading
import StyleSheet.Proofs.Moments

/-!
# Imports come to an end

A file that is being imported is not imported again, so the files being imported at one time are
different from each other.  This holds of all states that a run goes through
(`State.importsReadable_of_mem`), at any place inside of rulesets, branches, mixins and other
imports, and also where an error is on its way out of them.

There are only so many files in a table.  Each import that is started leaves one file less that can
be imported inside of it, and the statements of a file are finitely many, so a run without
expansions of mixins ends by itself.  A run may be limited to some depth.  That it ends by itself
means that the limit does not matter, as soon as it is not below the number of files
(`Settles`).
-/

namespace StyleSheet

/-! ### Statements without expansions -/

mutual

/-- Whether a statement expands a mixin, at the top or anywhere inside. -/
def Stmt.expands : Stmt → Bool
  | .ruleset _ rules children _ => Stmt.anyExpands rules || Stmt.anyExpands children
  | .mixin _ _ ⟨body, _⟩ _ => Stmt.anyExpands body
  | .expand .. => true
  | .branch _ ⟨yes, _⟩ no _ =>
    Stmt.anyExpands yes ||
      match no with
      | some ⟨statements, _⟩ => Stmt.anyExpands statements
      | none => false
  | _ => false

/-- Whether one of several statements expands a mixin. -/
def Stmt.anyExpands : List Stmt → Bool
  | [] => false
  | s :: rest => s.expands || Stmt.anyExpands rest

end

/-- A condition expands a mixin exactly if its branch does. -/
lemma Stmt.expands_branch_none (condition : Expr) (yes : List Stmt) (around span : Span) :
    (Stmt.branch condition ⟨yes, around⟩ none span).expands = Stmt.anyExpands yes := by
  simp [Stmt.expands]

/-- A condition with two branches expands a mixin exactly if one of them does. -/
lemma Stmt.expands_branch_some (condition : Expr) (yes no : List Stmt)
    (around around' span : Span) :
    (Stmt.branch condition ⟨yes, around⟩ (some ⟨no, around'⟩) span).expands =
      (Stmt.anyExpands yes || Stmt.anyExpands no) := by
  simp [Stmt.expands]

/-- Where no statement expands a mixin, each single one does not. -/
lemma Stmt.anyExpands_eq_false {statements : List Stmt} (h : Stmt.anyExpands statements = false) :
    ∀ s ∈ statements, s.expands = false := by
  induction statements with
  | nil => exact fun s hs => absurd hs List.not_mem_nil
  | cons first rest ih =>
    rw [Stmt.anyExpands, Bool.or_eq_false_iff] at h
    exact List.forall_mem_cons.mpr ⟨h.1, ih h.2⟩

namespace Evaluation

section WithoutExpansions

variable {expandBy expandBy' : Enclosing → String → List Expr → Span → Evaluation Output}
  {importBy : Enclosing → String → Span → Evaluation Output}

/-- What the parts of a statement expand, the statement expands. -/
lemma hereditary_not_expands : Stmt.Hereditary fun s => s.expands = false where
  rules hs s hmem := by
    rw [Stmt.expands, Bool.or_eq_false_iff] at hs
    exact Stmt.anyExpands_eq_false hs.1 s hmem
  children hs s hmem := by
    rw [Stmt.expands, Bool.or_eq_false_iff] at hs
    exact Stmt.anyExpands_eq_false hs.2 s hmem
  yes {_ yes no _} hs s hmem := by
    obtain ⟨statements, _⟩ := yes
    rcases no with _ | ⟨others, _⟩
    · rw [Stmt.expands_branch_none] at hs
      exact Stmt.anyExpands_eq_false hs s hmem
    · rw [Stmt.expands_branch_some, Bool.or_eq_false_iff] at hs
      exact Stmt.anyExpands_eq_false hs.1 s hmem
  no {_ yes _ _} hs b hb s hmem := by
    obtain ⟨statements, _⟩ := yes
    obtain ⟨others, _⟩ := b
    obtain rfl := Option.mem_def.mp hb
    rw [Stmt.expands_branch_some, Bool.or_eq_false_iff] at hs
    exact Stmt.anyExpands_eq_false hs.2 s hmem

/-- Without expansions it makes no difference how mixins are expanded. -/
lemma runAllBy_eq_of_not_expands {statements : List Stmt} (h : Stmt.anyExpands statements = false)
    (enclosing : Enclosing) :
    runAllBy expandBy importBy enclosing statements =
      runAllBy expandBy' importBy enclosing statements := by
  have hsame : Meaning.Related (fun s => s.expands = false) (.ofWays expandBy importBy)
      (.ofWays expandBy' importBy) fun _ x y => x = y := by
    refine ⟨fun _ => rfl, ?_, fun _ => rfl, ?_, fun _ => rfl, fun _ => rfl, ?_, fun _ => rfl, ?_,
      fun _ => rfl⟩
    · rintro _ x _ y _ rfl rfl
      rfl
    · intro _ header _ _ span x x' _ hbody
      rw [funext hbody]
      rfl
    · intro _ name args span hs
      cases hs
    · rintro _ condition _ _ _ x _ y y' _ rfl hno
      cases hno with
      | none => rfl
      | some hno =>
        rw [hno]
        rfl
  exact hsame.runAll hereditary_not_expands (Stmt.anyExpands_eq_false h) enclosing

end WithoutExpansions

/-! ### The files being imported -/

/-- The files being imported are different, and each of them can be loaded and read. -/
structure State.ImportsReadable (setting : Setting) (s : State) : Prop where
  nodup : s.paths.Nodup
  readable : ∀ path ∈ s.paths, ∃ source sheet,
    setting.load path = .ok source ∧ Sheet.ofText setting.keywords source = .ok sheet

namespace State.ImportsReadable

variable {setting : Setting} {s t : State}

/-- Only the imports under way matter. -/
lemma of_pending (h : s.ImportsReadable setting) (hpending : t.pending = s.pending) :
    t.ImportsReadable setting := by
  have hpaths : t.paths = s.paths := congrArg (List.map Pending.path) hpending
  refine ⟨?_, ?_⟩
  · rw [hpaths]
    exact h.nodup
  · rw [hpaths]
    exact h.readable

/-- An import starts with a file that is not being imported and that can be read. -/
lemma beginImport (h : s.ImportsReadable setting) {path : String} {sheet : Sheet}
    (hpath : s.isImporting path = false) (hsheet : importedSheet setting path = .ok sheet) :
    (s.beginImport path).ImportsReadable setting := by
  have hnew : path ∉ s.paths := by
    rw [← State.isImporting_iff, hpath]
    exact Bool.false_ne_true
  obtain ⟨source, hload, hread⟩ := load_of_importedSheet hsheet
  refine ⟨List.nodup_cons.mpr ⟨hnew, h.nodup⟩, ?_⟩
  intro other hother
  rcases List.mem_cons.mp hother with rfl | hother
  · exact ⟨source, sheet, hload, hread⟩
  · exact h.readable other hother

/-- The imports that are left under way when one ends were under way before. -/
lemma endImport (h : s.ImportsReadable setting) : s.endImport.ImportsReadable setting := by
  obtain ⟨env, _ | ⟨p, rest⟩⟩ := s
  · exact h
  · refine ⟨(List.nodup_cons.mp h.nodup).2, fun path hpath => ?_⟩
    exact h.readable path (List.mem_cons_of_mem _ hpath)

end State.ImportsReadable

/-- Wherever a run is, the files being imported are different and can be read, if they are so at its
start. -/
lemma State.importsReadable_of_mem {setting : Setting} {depth : Nat} {enclosing : Enclosing}
    {statements : List Stmt} {s u : State} (hs : s.ImportsReadable setting)
    (hu : u ∈ (Watched.runUpTo setting depth enclosing statements s).1) :
    u.ImportsReadable setting :=
  (Watched.through_runUpTo (fun _ _ h => h.of_pending rfl)
    (fun _ _ _ h hpath hsheet => h.beginImport hpath hsheet) (fun _ h => h.endImport) depth
    enclosing statements s hs).1 u hu

/-! ### Runs that end by themselves -/

variable {α β : Type} {paths : List String}

/-- While these files are being imported, the two computations do the same, and they do not stop for
their depth. -/
structure Settles (paths : List String) (x y : Evaluation α) : Prop where
  restoring : Restoring x
  ne_tooDeep : ∀ ⦃s⦄, s.paths = paths → (x s).1 ≠ .tooDeep
  eq : ∀ ⦃s⦄, s.paths = paths → x s = y s

/-- A success is not a run that is too deep. -/
lemma Outcome.ok_ne_tooDeep (a : α) : Outcome.ok a ≠ .tooDeep := nofun

/-- A failure is not a run that is too deep. -/
lemma Outcome.failed_ne_tooDeep (e : EvalError) : (Outcome.failed e : Outcome α) ≠ .tooDeep := nofun

/-- Doing nothing settles. -/
lemma settles_pure (a : α) : Settles paths (pure a : Evaluation α) (pure a) :=
  ⟨restoring_pure a, fun _ _ => Outcome.ok_ne_tooDeep a, fun _ _ => rfl⟩

/-- A failure settles. -/
lemma settles_fail (fault : Fault) (span : Span) :
    Settles paths (fail fault span : Evaluation α) (fail fault span) :=
  ⟨restoring_fail fault span, fun _ _ => Outcome.failed_ne_tooDeep _, fun _ _ => rfl⟩

/-- A change of the scopes settles. -/
lemma settles_change {f : Environment → Environment} (hf : ∀ e, (f e).stack = e.stack) :
    Settles paths (change f) (change f) :=
  ⟨restoring_change hf, fun _ _ => Outcome.ok_ne_tooDeep (), fun _ _ => rfl⟩

/-- A result that is known settles. -/
lemma settles_ofExcept (r : Except EvalError α) : Settles paths (ofExcept r) (ofExcept r) := by
  refine ⟨restoring_ofExcept r, fun _ _ => ?_, fun _ _ => rfl⟩
  cases r with
  | ok a => exact Outcome.ok_ne_tooDeep a
  | error e => exact Outcome.failed_ne_tooDeep e

/-- The same files are being imported after a computation that restores the imports. -/
lemma Restoring.paths_eq {x : Evaluation α} (hx : Restoring x) {s t : State} {o : Outcome α}
    (h : x s = (o, t)) : t.paths = s.paths := by
  have hrestored := hx s
  rw [h] at hrestored
  exact congrArg (List.map Pending.path) hrestored.2

/-- Computations that follow one another settle if both do, since the first restores the imports
under way. -/
lemma Settles.bind {x y : Evaluation α} {f g : α → Evaluation β} (hx : Settles paths x y)
    (hf : ∀ a, Settles paths (f a) (g a)) : Settles paths (x >>= f) (y >>= g) := by
  refine ⟨hx.restoring.bind fun a => (hf a).restoring, fun s hs => ?_, fun s hs => ?_⟩
  · have hxs := hx.ne_tooDeep hs
    change (Evaluation.bind x f s).1 ≠ .tooDeep
    unfold Evaluation.bind
    rcases h : x s with ⟨a | e | _, t⟩
    all_goals rw [h] at hxs
    · exact (hf a).ne_tooDeep ((hx.restoring.paths_eq h).trans hs)
    · exact Outcome.failed_ne_tooDeep e
    · exact absurd rfl hxs
  · change Evaluation.bind x f s = Evaluation.bind y g s
    rw [Evaluation.bind, Evaluation.bind, ← hx.eq hs]
    rcases h : x s with ⟨a | e | _, t⟩
    · exact (hf a).eq ((hx.restoring.paths_eq h).trans hs)
    · rfl
    · rfl

/-- A computation that asks for the state settles if it does whatever the state is. -/
lemma settles_state_bind {f : State → Evaluation α} (hf : ∀ s, Settles paths (f s) (f s)) :
    Settles paths (state >>= f) (state >>= f) :=
  ⟨restoring_state.bind fun s => (hf s).restoring, fun s hs => (hf s).ne_tooDeep hs,
    fun _ _ => rfl⟩

/-- A choice settles if both of its sides do. -/
lemma settles_ite {c : Prop} [Decidable c] {x y : Evaluation α} (hx : Settles paths x x)
    (hy : Settles paths y y) : Settles paths (if c then x else y) (if c then x else y) := by
  by_cases h : c
  · rw [if_pos h]
    exact hx
  · rw [if_neg h]
    exact hy

/-- A computation in a scope of its own settles if it does. -/
lemma Settles.within {x y : Evaluation α} (hx : Settles paths x y) :
    Settles paths (within (·.push) x) (within (·.push) y) := by
  refine ⟨hx.restoring.within fun _ => rfl, fun s hs => ?_, fun s hs => ?_⟩
  · have hentered : State.paths { s with env := s.env.push } = paths := hs
    exact hx.ne_tooDeep hentered
  · have hentered : State.paths { s with env := s.env.push } = paths := hs
    rw [Evaluation.within, Evaluation.within, hx.eq hentered]

/-- The value of an expression settles. -/
lemma settles_valueOf (e : Expr) : Settles paths (valueOf e) (valueOf e) :=
  settles_state_bind fun _ => settles_ofExcept _

/-- The values of expressions settle. -/
lemma settles_valuesOf (es : List Expr) : Settles paths (valuesOf es) (valuesOf es) :=
  settles_state_bind fun _ => settles_ofExcept _

/-- The truth of a condition settles. -/
lemma settles_truthOf (condition : Expr) :
    Settles paths (truthOf condition) (truthOf condition) := by
  refine (settles_valueOf condition).bind fun v => ?_
  split
  · exact settles_pure _
  · exact settles_fail _ _

/-- The selectors of a ruleset settle. -/
lemma settles_selectorsOf (enclosing : Enclosing) (header : List Token) (span : Span) :
    Settles paths (selectorsOf enclosing header span) (selectorsOf enclosing header span) := by
  unfold selectorsOf
  split
  · exact settles_pure _
  · exact settles_fail _ _

/-- An assignment settles. -/
lemma settles_assign (name : String) (value : Expr) (isGlobal isDefault : Bool) :
    Settles paths (assign name value isGlobal isDefault)
      (assign name value isGlobal isDefault) := by
  refine settles_state_bind fun s => settles_ite (settles_pure ()) ?_
  refine (settles_valueOf value).bind fun v => settles_change fun e => ?_
  cases isGlobal <;> rfl

/-- All ways to put statements together keep that they settle. -/
lemma congruent_settles (paths : List String) : Congruent fun _ x y => Settles paths x y where
  pure _ := settles_pure
  bind _ _ _ _ _ _ hx hf := hx.bind hf
  within _ _ hx := hx.within
  valueOf := settles_valueOf
  truthOf := settles_truthOf
  selectorsOf := settles_selectorsOf
  declare _ _ values _ _ :=
    settles_ite (settles_fail _ _) ((settles_valuesOf values).bind fun _ => settles_pure _)
  assign := settles_assign
  defineMixin _ := settles_change fun _ => rfl

/-- An import settles if its file does, while it is being imported itself. -/
lemma settles_importFile {load : Loader} {keywords : Keyword.Table} {limit limit' : Nat}
    {deeper deeper' : Enclosing → List Stmt → Evaluation Output} {enclosing : Enclosing}
    {path : String} (span : Span) (hrestoring : ∀ e l, Restoring (deeper e l))
    (hfile : ∀ sheet, path ∉ paths → importedSheet ⟨load, keywords, limit⟩ path = .ok sheet →
      Settles (path :: paths) (deeper enclosing sheet) (deeper' enclosing sheet)) :
    Settles paths (importFile ⟨load, keywords, limit⟩ deeper enclosing path span)
      (importFile ⟨load, keywords, limit'⟩ deeper' enclosing path span) := by
  have himport : ∀ s : State, s.paths = paths →
      (importFile ⟨load, keywords, limit⟩ deeper enclosing path span s).1 ≠ .tooDeep ∧
        importFile ⟨load, keywords, limit⟩ deeper enclosing path span s =
          importFile ⟨load, keywords, limit'⟩ deeper' enclosing path span s := by
    intro s hs
    by_cases hpath : s.isImporting path = true
    · rw [importFile_of_isImporting hpath, importFile_of_isImporting hpath]
      exact ⟨Outcome.failed_ne_tooDeep _, rfl⟩
    · have hnew : path ∉ paths := by
        rw [← hs, ← State.isImporting_iff]
        exact hpath
      rw [Bool.not_eq_true] at hpath
      -- the limit is no part of what is imported
      have hsame : importedSheet ⟨load, keywords, limit'⟩ path =
          importedSheet ⟨load, keywords, limit⟩ path := rfl
      cases hsheet : importedSheet ⟨load, keywords, limit⟩ path with
      | error fault =>
        rw [importFile_of_error hpath hsheet, importFile_of_error hpath (hsame.trans hsheet)]
        exact ⟨Outcome.failed_ne_tooDeep _, rfl⟩
      | ok sheet =>
        have hsettles := hfile sheet hnew hsheet
        have hbegun : (s.beginImport path).paths = path :: paths := congrArg (path :: ·) hs
        have hends := hsettles.ne_tooDeep hbegun
        rw [importFile_of_ok hpath hsheet, importFile_of_ok hpath (hsame.trans hsheet),
          Evaluation.importing, Evaluation.importing, ← hsettles.eq hbegun]
        refine ⟨?_, rfl⟩
        rcases h : deeper enclosing sheet (s.beginImport path) with ⟨a | e | _, t⟩
        all_goals rw [h] at hends
        · exact Outcome.ok_ne_tooDeep a
        · exact Outcome.failed_ne_tooDeep _
        · exact absurd rfl hends
  exact ⟨restoring_importFile hrestoring enclosing path span, fun s hs => (himport s hs).1,
    fun s hs => (himport s hs).2⟩

/-- The number of files of a table that are not being imported. -/
def unread (files : Table String) (paths : List String) : Nat :=
  ((files.entries.map Prod.fst).toFinset \ paths.toFinset).card

/-- No more files are unread than there are. -/
lemma unread_le (files : Table String) (paths : List String) :
    unread files paths ≤ files.entries.length := by
  calc unread files paths ≤ (files.entries.map Prod.fst).toFinset.card :=
        Finset.card_le_card Finset.sdiff_subset
    _ ≤ (files.entries.map Prod.fst).length := List.toFinset_card_le _
    _ = files.entries.length := List.length_map _

/-- An import that is started leaves one file less. -/
lemma unread_cons_lt {files : Table String} {path source : String}
    (hfile : files.get? path = some source) (hnew : path ∉ paths) :
    unread files (path :: paths) < unread files paths := by
  have hmem : path ∈ (files.entries.map Prod.fst).toFinset := by
    rw [List.mem_toFinset]
    exact List.mem_map.mpr ⟨(path, source), Table.mem_entries_of_get? hfile, rfl⟩
  refine Finset.card_lt_card (Finset.ssubset_iff_of_subset ?_ |>.mpr ⟨path, ?_, ?_⟩)
  · refine Finset.sdiff_subset_sdiff (Finset.Subset.refl _) ?_
    rw [List.toFinset_cons]
    exact Finset.subset_insert path _
  · exact Finset.mem_sdiff.mpr ⟨hmem, fun h => hnew (List.mem_toFinset.mp h)⟩
  · intro h
    exact (Finset.mem_sdiff.mp h).2 (List.mem_toFinset.mpr List.mem_cons_self)

/-- No file of the table expands a mixin. -/
def WithoutExpansions (keywords : Keyword.Table) (files : Table String) : Prop :=
  ∀ path source sheet, files.get? path = some source → Sheet.ofText keywords source = .ok sheet →
    Stmt.anyExpands sheet = false

/-- A run settles if it may go deeper than there are files that are not being imported. -/
lemma settles_runUpTo {keywords : Keyword.Table} {files : Table String}
    (hfiles : WithoutExpansions keywords files) (limit limit' depth depth' : Nat)
    (hdepth : unread files paths < depth) (hdepth' : unread files paths < depth')
    (enclosing : Enclosing) {statements : List Stmt}
    (hstatements : Stmt.anyExpands statements = false) :
    Settles paths (runUpTo ⟨.ofTable files, keywords, limit⟩ depth enclosing statements)
      (runUpTo ⟨.ofTable files, keywords, limit'⟩ depth' enclosing statements) := by
  induction depth generalizing depth' paths enclosing statements with
  | zero => exact absurd hdepth (Nat.not_lt_zero _)
  | succ depth ih =>
    obtain ⟨depth', rfl⟩ : ∃ n, depth' = n + 1 := Nat.exists_eq_succ_of_ne_zero (by omega)
    have himport : ∀ enclosing path span,
        Settles paths
          (importFile ⟨.ofTable files, keywords, limit⟩
            (runUpTo ⟨.ofTable files, keywords, limit⟩ depth) enclosing path span)
          (importFile ⟨.ofTable files, keywords, limit'⟩
            (runUpTo ⟨.ofTable files, keywords, limit'⟩ depth') enclosing path span) := by
      intro enclosing path span
      refine settles_importFile span (restoring_runUpTo _ depth) fun sheet hnew hsheet => ?_
      obtain ⟨source, hload, hread⟩ := load_of_importedSheet hsheet
      have hfile : files.get? path = some source := Loader.ofTable_eq_ok.mp hload
      have hless : unread files (path :: paths) < unread files paths := unread_cons_lt hfile hnew
      exact ih depth' (by omega) (by omega) enclosing (hfiles path source sheet hfile hread)
    -- no statement expands, so both runs may take any way of expanding in place of their own
    have hnone : ∀ (limit : Nat) (deeper : Enclosing → List Stmt → Evaluation Output),
        runAll ⟨.ofTable files, keywords, limit⟩ deeper enclosing statements =
          runAllBy (fun _ _ _ _ => pure .empty)
            (importFile ⟨.ofTable files, keywords, limit⟩ deeper)
            enclosing statements := by
      intro limit deeper
      rw [runAll_eq_runAllBy]
      exact runAllBy_eq_of_not_expands hstatements enclosing
    rw [runUpTo, runUpTo, hnone, hnone]
    exact (congruent_settles paths).runAllBy (fun _ _ _ _ => (congruent_settles paths).pure _)
      himport statements enclosing

end Evaluation

namespace Session

open Evaluation

/-- The states of a run are seen from its start to its end, whatever its outcome.  If the run starts
while nothing is being imported, then in each of them the files being imported are different from
each other, and each of them has been loaded and read. -/
lemma exists_states_of_runUpTo (setting : Setting) (depth : Nat) (enclosing : Enclosing)
    (statements : List Stmt) {s : State} (hs : s.pending = []) :
    ∃ (states : List State) (o : Outcome Output) (t : State),
      Watched.runUpTo setting depth enclosing statements s = (states, o, t) ∧
      runUpTo setting depth enclosing statements s = (o, t) ∧
      states.head? = some s ∧ states.getLast? = some t ∧ states.IsChain State.Adjacent ∧
      ∀ u ∈ states, u.ImportsReadable setting := by
  have hpaths : s.paths = [] := congrArg (List.map Pending.path) hs
  have hstart : s.ImportsReadable setting := by
    refine ⟨?_, ?_⟩
    · rw [hpaths]
      exact List.nodup_nil
    · rw [hpaths]
      exact fun path hpath => absurd hpath List.not_mem_nil
  -- the watched run gives the states, and forgetting the record gives the run itself
  have herase := congrFun (Watched.erase_runUpTo setting depth enclosing statements) s
  have hseamless := Watched.seamless_runUpTo setting depth enclosing statements
  have hhead := hseamless.head s
  have hlast := hseamless.last s
  have hchain := hseamless.chain s
  rcases hrun : Watched.runUpTo setting depth enclosing statements s with ⟨states, o, t⟩
  rw [hrun] at hhead hlast hchain
  refine ⟨states, o, t, rfl, ?_, hhead, hlast, hchain, fun u hu => ?_⟩
  · rw [← herase, Traced.erase, hrun]
  · have hseen : u ∈ (Watched.runUpTo setting depth enclosing statements s).1 := by
      rw [hrun]
      exact hu
    exact State.importsReadable_of_mem hstart hseen

/-- Without expansions of mixins, a limit of as many levels as there are files is never reached, so
a larger one changes nothing. -/
lemma exists_program_eq {keywords : Keyword.Table} {files : Table String} {sheet : Sheet}
    (hfiles : WithoutExpansions keywords files) (hsheet : Stmt.anyExpands sheet = false)
    (s : Session) :
    ∃ r : Outcome String × Session, r.1 ≠ .tooDeep ∧ ∀ limit, files.entries.length ≤ limit →
      s.program ⟨.ofTable files, keywords, limit⟩ sheet = r := by
  have hsettles : ∀ limit, files.entries.length ≤ limit →
      Settles s.state.paths
        (runUpTo ⟨.ofTable files, keywords, files.entries.length⟩ (files.entries.length + 1) none
          sheet)
        (runUpTo ⟨.ofTable files, keywords, limit⟩ (limit + 1) none sheet) := by
    intro limit hlimit
    have hle := unread_le files s.state.paths
    exact settles_runUpTo hfiles _ _ _ _ (by omega) (by omega) none hsheet
  refine ⟨s.program ⟨.ofTable files, keywords, files.entries.length⟩ sheet, ?_, ?_⟩
  · have hends := (hsettles files.entries.length le_rfl).ne_tooDeep rfl
    rw [program_eq_conclude_runAll]
    unfold runUpTo at hends
    rcases h : runAll ⟨.ofTable files, keywords, files.entries.length⟩
        (runUpTo ⟨.ofTable files, keywords, files.entries.length⟩ files.entries.length) none sheet
        s.state with ⟨out | e | _, t⟩
    all_goals rw [h] at hends
    · exact Outcome.ok_ne_tooDeep _
    · exact Outcome.failed_ne_tooDeep e
    · exact absurd rfl hends
  · intro limit hlimit
    have heq := (hsettles limit hlimit).eq rfl
    unfold runUpTo at heq
    rw [program_eq_conclude_runAll, program_eq_conclude_runAll, heq]

/-- A run is watched without a change to what it does (the first part).  Its states are seen from
the start to the end, and between two of them that follow each other at most one import begins or
ends.  In each state of a run that starts while nothing is being imported, the files being imported
are different from each other, and each of them has been loaded and read.

A program without expansions of mixins, whose files are those of a table and do not expand mixins
either, ends by itself with success or an error: its result is the same for all limits of its depth
that are not below the number of files. -/
theorem imports_distinct_and_program_ends :
    (∀ (setting : Setting) (depth : Nat) (enclosing : Enclosing) (statements : List Stmt)
      (s : State), s.pending = [] → ∃ (states : List State) (o : Outcome Output) (t : State),
        Watched.runUpTo setting depth enclosing statements s = (states, o, t) ∧
        runUpTo setting depth enclosing statements s = (o, t) ∧
        states.head? = some s ∧ states.getLast? = some t ∧ states.IsChain State.Adjacent ∧
        ∀ u ∈ states, u.paths.Nodup ∧ ∀ path ∈ u.paths, ∃ source sheet,
          setting.load path = .ok source ∧ Sheet.ofText setting.keywords source = .ok sheet) ∧
    ∀ (keywords : Keyword.Table) (files : Table String) (sheet : Sheet),
      WithoutExpansions keywords files → Stmt.anyExpands sheet = false → ∀ s : Session,
        ∃ r : Outcome String × Session, r.1 ≠ .tooDeep ∧ ∀ limit, files.entries.length ≤ limit →
          s.program ⟨.ofTable files, keywords, limit⟩ sheet = r := by
  constructor
  · intro setting depth enclosing statements s hs
    obtain ⟨states, o, t, hwatched, hrun, hhead, hlast, hchain, hreadable⟩ :=
      exists_states_of_runUpTo setting depth enclosing statements hs
    refine ⟨states, o, t, hwatched, hrun, hhead, hlast, hchain, fun u hu => ?_⟩
    exact ⟨(hreadable u hu).nodup, (hreadable u hu).readable⟩
  · exact fun keywords files sheet hfiles hsheet s => exists_program_eq hfiles hsheet s

/-- Two files import a third one, which imports the first of all again when it is read for the
second time. -/
def diamondFiles : Table String :=
  ⟨[("a", "@import 'b';@import 'c';"), ("b", "@import 'd';"), ("c", "@import 'd';"),
    ("d", "X\x7bx:$n\x7d@if $n==2\x7b@import 'a'\x7d$n:$n+1;")]⟩

def diamondSetting : Setting := ⟨.ofTable diamondFiles, .builtin, 4294967296⟩

/-- `$n: 1; @import 'a';` -/
def diamondSheet : Sheet :=
  [.assign ⟨"$n", .point 0⟩ (.number 1 none (.point 0)) false false (.point 0),
    .importFile "a" (.point 0)]

/-- Three different files are being imported when the last one is reached.  The second time, this
one closes a cycle of imports, so the program fails, whatever the limit on its depth. -/
theorem imports_distinct_and_program_ends_diamondSheet :
    (∃ (states : List State) (o : Outcome Output) (t u : State),
      Watched.runUpTo diamondSetting 5 none diamondSheet .initial = (states, o, t) ∧
        u ∈ states ∧ u.paths = ["d", "c", "a"] ∧ u.paths.Nodup) ∧
    ∃ e : EvalError, e.fault = .importCycle "a" ∧ e.imports = ["a", "c", "d"] ∧
      ∀ limit, 4 ≤ limit →
        (initial.program ⟨.ofTable diamondFiles, .builtin, limit⟩ diamondSheet).1 = .failed e := by
  obtain ⟨hdistinct, hends⟩ := imports_distinct_and_program_ends
  constructor
  · obtain ⟨states, o, t, hrun, -, -, -, -, hstates⟩ :=
      hdistinct diamondSetting 5 none diamondSheet .initial rfl
    have hseen : (states.map State.paths).any (· == ["d", "c", "a"]) = true := by
      have hstates : states =
          (Watched.runUpTo diamondSetting 5 none diamondSheet .initial).1 := by rw [hrun]
      rw [hstates]
      decide +kernel
    obtain ⟨paths, hpaths, heq⟩ := List.any_eq_true.mp hseen
    obtain ⟨u, hu, rfl⟩ := List.mem_map.mp hpaths
    exact ⟨states, o, t, u, hrun, hu, beq_iff_eq.mp heq, (hstates u hu).1⟩
  · have hfiles : WithoutExpansions .builtin diamondFiles := by
      have hall : ∀ e ∈ diamondFiles.entries,
          (Sheet.ofText .builtin e.2).toOption.all (fun sheet => !Stmt.anyExpands sheet) =
            true := by
        decide +kernel
      intro path source sheet hfile hread
      have hsource := hall _ (Table.mem_entries_of_get? hfile)
      rw [hread] at hsource
      simpa [Except.toOption] using hsource
    have hsheet : Stmt.anyExpands diamondSheet = false := rfl
    obtain ⟨r, -, hr⟩ := hends .builtin diamondFiles diamondSheet hfiles hsheet initial
    let e : EvalError := .inImport "a" (.inImport "c" (.inImport "d" (.raised (.importCycle "a")
      ⟨17, 28⟩) ⟨0, 11⟩) ⟨12, 23⟩) (.point 0)
    have hfails : (initial.program ⟨.ofTable diamondFiles, .builtin, 4⟩ diamondSheet).1 =
        .failed e := by
      decide +kernel
    rw [hr 4 le_rfl] at hfails
    refine ⟨e, rfl, rfl, fun limit hlimit => ?_⟩
    rw [hr limit hlimit, hfails]

end Session

end StyleSheet

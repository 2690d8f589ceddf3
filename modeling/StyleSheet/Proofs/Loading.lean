import StyleSheet.Build.File
import StyleSheet.Proofs.Spans.Errors
import StyleSheet.Proofs.Splicing

/-!
# More files to import

A build that succeeds goes on to succeed, with the same output, when there are more files to import
(`Build.ofText_eq_ok_of_extends`).  A file that is there in the first place is not read from
anywhere else afterwards: a table of texts keeps what it has when new paths are added to it, and a
search for a file comes to further directories only where it would have failed without them.

The two builds are compared step by step.  As long as the first one goes on, the second one goes
through the same states (`Evaluation.Keeps`).  They part only where an import fails in the first,
and there is no success after that.
-/

namespace StyleSheet

/-! ### Loaders -/

namespace Loader

/-- The second loader has each text that the first one has. -/
def Extends (load load' : Loader) : Prop :=
  ∀ path source, load path = .ok source → load' path = .ok source

variable {files : Table String}

/-- A loader from a table gives what the table has. -/
lemma ofTable_eq_ok {path source : String} :
    ofTable files path = .ok source ↔ files.get? path = some source := by
  unfold ofTable
  cases files.get? path with
  | none => simp
  | some text => simp

/-- A loader from a larger table extends the first. -/
lemma extends_ofTable {more : Table String}
    (h : ∀ path source, files.get? path = some source → more.get? path = some source) :
    (ofTable files).Extends (ofTable more) := by
  intro path source hload
  exact ofTable_eq_ok.mpr (h path source (ofTable_eq_ok.mp hload))

end Loader

/-- What is put into a table under new names leaves what it has. -/
lemma Table.get?_foldl_insert {α : Type} {more : List (String × α)} {t : Table α} {name : String}
    {a : α} (hnew : ∀ e ∈ more, t.get? e.1 = none) (h : t.get? name = some a) :
    (more.foldl (fun t e => t.insert e.1 e.2) t).get? name = some a := by
  -- the table grows on the way, so what is kept is said of the name and not of the whole table
  have hne : ∀ e ∈ more, name ≠ e.1 := by
    rintro e he rfl
    rw [hnew e he] at h
    cases h
  clear hnew
  induction more generalizing t with
  | nil => exact h
  | cons e rest ih =>
    have hinsert : (t.insert e.1 e.2).get? name = some a := by
      rw [Table.get?_insert, if_neg (hne e List.mem_cons_self)]
      exact h
    exact ih hinsert fun e' he' => hne e' (List.mem_cons_of_mem e he')

namespace Search

/-- A search that finds a file does not come to the directories after those it has. -/
lemma load_append {read : Reader} {path source : String} {dirs : List String}
    (h : load read path dirs = .ok source) (more : List String) :
    load read path (dirs ++ more) = .ok source := by
  induction dirs with
  | nil => cases h
  | cons dir rest ih =>
    rw [List.cons_append]
    unfold load at h ⊢
    cases hread : read (Path.join dir (fileOf path)) with
    | ok text =>
      rw [hread] at h
      exact h
    | error cause =>
      rw [hread] at h
      cases cause with
      | notFound => exact ih h
      | _ => cases h

/-- A loader with more directories at the end extends the first. -/
lemma extends_loader (read : Reader) (dirs more : List String) :
    (loader read dirs).Extends (loader read (dirs ++ more)) :=
  fun _ _ h => load_append h more

end Search

/-! ### Runs -/

namespace Evaluation

variable {α β : Type}

/-- The second computation has each success of the first, with the same state after it. -/
def Keeps (x y : Evaluation α) : Prop := ∀ ⦃s a t⦄, x s = (.ok a, t) → y s = (.ok a, t)

/-- A computation keeps its own successes. -/
lemma keeps_refl (x : Evaluation α) : Keeps x x := fun _ _ _ h => h

/-- Computations that follow one another keep successes if both do. -/
lemma Keeps.bind {x y : Evaluation α} {f g : α → Evaluation β} (hx : Keeps x y)
    (hf : ∀ a, Keeps (f a) (g a)) : Keeps (x >>= f) (y >>= g) := by
  intro s b t h
  obtain ⟨a, u, hxs, hfu⟩ := bind_eq_ok h
  have hys : y s = (.ok a, u) := hx hxs
  have hgu : g a u = (.ok b, t) := hf a hfu
  change Evaluation.bind y g s = (.ok b, t)
  rw [Evaluation.bind, hys]
  exact hgu

/-- Computations in scopes of their own keep successes. -/
lemma Keeps.within {x y : Evaluation α} (hx : Keeps x y) (enter : Environment → Environment) :
    Keeps (within enter x) (within enter y) := by
  intro s a t h
  obtain ⟨u, hxs, rfl⟩ := within_eq_ok h
  have hys := hx hxs
  rw [Evaluation.within, hys]

/-- Imports keep successes if the runs of their files do. -/
lemma Keeps.importing {x y : Evaluation α} (hx : Keeps x y) (path : String) (span : Span) :
    Keeps (importing path span x) (importing path span y) := by
  intro s a t h
  obtain ⟨u, hxs, rfl⟩ := importing_eq_ok h
  have hys := hx hxs
  rw [Evaluation.importing, hys]

/-- All ways to put statements together keep successes. -/
lemma congruent_keeps : Congruent fun _ x y => Keeps x y where
  pure _ _ := keeps_refl _
  bind _ _ _ _ _ _ hx hf := hx.bind hf
  within _ _ hx := hx.within _
  valueOf _ := keeps_refl _
  truthOf _ := keeps_refl _
  selectorsOf _ _ _ := keeps_refl _
  declare _ _ _ _ _ := keeps_refl _
  assign _ _ _ _ := keeps_refl _
  defineMixin _ := keeps_refl _

section Deeper

variable {setting setting' : Setting} {deeper deeper' : Enclosing → List Stmt → Evaluation Output}

/-- Expansions of mixins keep successes if the runs of their bodies do. -/
lemma keeps_expand
    (hdeeper : ∀ enclosing statements,
      Keeps (deeper enclosing statements) (deeper' enclosing statements))
    (enclosing : Enclosing) (name : String) (args : List Expr) (span : Span) :
    Keeps (expand deeper enclosing name args span) (expand deeper' enclosing name args span) := by
  refine (keeps_refl state).bind fun s => ?_
  split
  · exact keeps_refl _
  · rename_i b _
    split
    · exact keeps_refl _
    · exact (keeps_refl (valuesOf args)).bind fun values =>
        (hdeeper enclosing b.mixin.body).within _

/-- The second setting reads each file that the first one can import, as the same sheet. -/
def ImportsMore (setting setting' : Setting) : Prop :=
  ∀ path sheet, importedSheet setting path = .ok sheet → importedSheet setting' path = .ok sheet

/-- A file that is read with the first loader is read with the second. -/
lemma importsMore_of_extends {load' : Loader} (h : setting.load.Extends load') :
    ImportsMore setting { setting with load := load' } := by
  intro path sheet hsheet
  obtain ⟨source, hload, hread⟩ := load_of_importedSheet hsheet
  have hload' : load' path = .ok source := h path source hload
  unfold importedSheet
  simp only [hload', hread]

/-- Imports keep successes under a setting that can import more. -/
lemma keeps_importFile (h : ImportsMore setting setting')
    (hdeeper : ∀ enclosing statements,
      Keeps (deeper enclosing statements) (deeper' enclosing statements))
    (enclosing : Enclosing) (path : String) (span : Span) :
    Keeps (importFile setting deeper enclosing path span)
      (importFile setting' deeper' enclosing path span) := by
  intro s out t hrun
  obtain ⟨hpath, sheet, hsheet, himporting⟩ := importing_of_importFile_ok hrun
  rw [importFile_of_ok hpath (h path sheet hsheet)]
  exact (hdeeper enclosing sheet).importing path span himporting

/-- Runs of statements keep successes if the deeper runs do. -/
lemma keeps_runAll (h : ImportsMore setting setting')
    (hdeeper : ∀ enclosing statements,
      Keeps (deeper enclosing statements) (deeper' enclosing statements))
    (statements : List Stmt) (enclosing : Enclosing) :
    Keeps (runAll setting deeper enclosing statements)
      (runAll setting' deeper' enclosing statements) := by
  rw [runAll_eq_runAllBy, runAll_eq_runAllBy]
  exact congruent_keeps.runAllBy (keeps_expand hdeeper) (keeps_importFile h hdeeper) statements
    enclosing

/-- By induction on the depth, runs of statements keep successes under a setting that can import
more. -/
lemma keeps_runUpTo (h : ImportsMore setting setting') (depth : Nat) (enclosing : Enclosing)
    (statements : List Stmt) :
    Keeps (runUpTo setting depth enclosing statements)
      (runUpTo setting' depth enclosing statements) := by
  induction depth generalizing enclosing statements with
  | zero => exact keeps_refl tooDeep
  | succ depth ih => exact keeps_runAll h ih statements enclosing

end Deeper

end Evaluation

/-! ### Builds -/

namespace Build

open Evaluation

/-- A sheet is built by running its statements. -/
lemma ofSheet_eq (setting : Setting) (sheet : Sheet) :
    ofSheet setting sheet =
      match runAll setting (runUpTo setting setting.maxDepth) none sheet .initial with
      | (.ok out, _) => .ok ("\n".intercalate out.blocks)
      | (.failed e, _) => .error (.eval e)
      | (.tooDeep, _) => .error .tooDeep := by
  have hstate : Session.initial.state = .initial := rfl
  rw [ofSheet, Session.program_eq_conclude_runAll, hstate]
  rcases runAll setting (runUpTo setting setting.maxDepth) none sheet .initial with ⟨_ | _ | _, t⟩
  all_goals rfl

/-- A sheet that is built goes on to be built with a setting that imports more, as deep as before.
-/
lemma ofSheet_of_importsMore {setting setting' : Setting} (h : ImportsMore setting setting')
    (hdepth : setting'.maxDepth = setting.maxDepth) {sheet : Sheet} {output : String}
    (hbuild : ofSheet setting sheet = .ok output) : ofSheet setting' sheet = .ok output := by
  simp only [ofSheet_eq] at hbuild ⊢
  rcases hrun : runAll setting (runUpTo setting setting.maxDepth) none sheet .initial with
    ⟨out | _ | _, t⟩
  all_goals
    rw [hrun] at hbuild
    cases hbuild
  have hrun' := keeps_runAll h (keeps_runUpTo h setting.maxDepth) sheet none hrun
  rw [hdepth, hrun']

/-- What is built is built the same with a loader that extends the first. -/
lemma ofText_of_extends (setting : Setting) {load' : Loader} (h : setting.load.Extends load')
    {source output : String} (hbuild : ofText setting source = .ok output) :
    ofText { setting with load := load' } source = .ok output := by
  unfold ofText at hbuild ⊢
  cases hread : Sheet.ofText setting.keywords source with
  | error e =>
    rw [hread] at hbuild
    cases hbuild
  | ok sheet =>
    rw [hread] at hbuild
    exact ofSheet_of_importsMore (importsMore_of_extends h) rfl hbuild

/-- A build that succeeds has the same output with a loader that has more texts.  Such a loader is a
table of texts to which others are added under new paths, and a search through some directories and
then through others.  So a file is built in the same way when directories are added to those that
are searched. -/
theorem ofText_eq_ok_of_extends :
    (∀ (setting : Setting) (load' : Loader), setting.load.Extends load' →
      ∀ source output, ofText setting source = .ok output →
        ofText { setting with load := load' } source = .ok output) ∧
    (∀ (files : Table String) (more : List (String × String)),
      (∀ e ∈ more, files.get? e.1 = none) → ∀ (keywords : Keyword.Table) (maxDepth : Nat),
        ∀ source output, ofText ⟨.ofTable files, keywords, maxDepth⟩ source = .ok output →
          ofText ⟨.ofTable (more.foldl (fun t e => t.insert e.1 e.2) files), keywords, maxDepth⟩
            source = .ok output) ∧
    (∀ (read : Reader) (dirs more : List String) (keywords : Keyword.Table) (maxDepth : Nat),
      ∀ source output, ofText ⟨Search.loader read dirs, keywords, maxDepth⟩ source = .ok output →
        ofText ⟨Search.loader read (dirs ++ more), keywords, maxDepth⟩ source = .ok output) ∧
    ∀ (read : Reader) (keywords : Keyword.Table) (includes more : List String) (entry : String),
      ∀ output, ofFile read keywords includes entry = .ok output →
        ofFile read keywords (includes ++ more) entry = .ok output := by
  refine ⟨fun setting load' h source output => ofText_of_extends setting h, ?_, ?_, ?_⟩
  · intro files more hnew keywords maxDepth source output hbuild
    have h : (Loader.ofTable files).Extends
        (Loader.ofTable (more.foldl (fun t e => t.insert e.1 e.2) files)) :=
      Loader.extends_ofTable fun path text htext => Table.get?_foldl_insert hnew htext
    exact ofText_of_extends ⟨.ofTable files, keywords, maxDepth⟩ h hbuild
  · intro read dirs more keywords maxDepth source output hbuild
    exact ofText_of_extends ⟨Search.loader read dirs, keywords, maxDepth⟩
      (Search.extends_loader read dirs more) hbuild
  · intro read keywords includes more entry output hbuild
    unfold ofFile at hbuild ⊢
    cases hread : read entry with
    | error cause =>
      rw [hread] at hbuild
      cases hbuild
    | ok source =>
      rw [hread] at hbuild
      exact ofText_of_extends (settingFor read keywords entry includes)
        (Search.extends_loader read (Search.directories entry includes) more) hbuild

/-- A theme stands in each of two directories, and none beside the file that imports it. -/
def themeFiles : Table String :=
  ⟨[("main.qss", "@import 'theme';"), ("light/theme.qss", "A\x7bx:white;\x7d"),
    ("dark/theme.qss", "A\x7bx:black;\x7d")]⟩

def themeReader : Reader := fun path =>
  match themeFiles.get? path with
  | some source => .ok source
  | none => .error .notFound

/-- The theme of the directory that is searched first is built, with and without the other one, and
in a table an unused file makes no difference. -/
theorem ofText_eq_ok_of_extends_themeFiles :
    ofFile themeReader .builtin (["light"] ++ ["dark"]) "main.qss" = .ok "A\x7bx:white;\x7d" ∧
    ofFile themeReader .builtin ["dark"] "main.qss" = .ok "A\x7bx:black;\x7d" ∧
    ofText ⟨Search.loader themeReader (["none", "dark"] ++ ["light"]), .builtin, 2⟩
      "@import 'theme';" = .ok "A\x7bx:black;\x7d" ∧
    ofText ⟨.ofTable (([("b", "B")] : List (String × String)).foldl (fun t e => t.insert e.1 e.2)
      ⟨[("a", "A\x7b\x7d")]⟩), .builtin, 2⟩ "@import 'a';" = .ok "A\x7b\x7d" ∧
    ofText ⟨fun _ => .ok "A\x7b\x7d", .builtin, 2⟩ "@import 'a';" = .ok "A\x7b\x7d" := by
  obtain ⟨hloader, htable, hsearch, hfile⟩ := ofText_eq_ok_of_extends
  have hlight : ofFile themeReader .builtin ["light"] "main.qss" = .ok "A\x7bx:white;\x7d" := by
    decide +kernel
  have hdark : ofText ⟨Search.loader themeReader ["none", "dark"], .builtin, 2⟩ "@import 'theme';" =
      .ok "A\x7bx:black;\x7d" := by
    decide +kernel
  have ha : ofText ⟨.ofTable ⟨[("a", "A\x7b\x7d")]⟩, .builtin, 2⟩ "@import 'a';" =
      .ok "A\x7b\x7d" := by
    decide +kernel
  refine ⟨hfile _ _ _ _ _ _ hlight, by decide +kernel, hsearch _ _ _ _ _ _ _ hdark, ?_, ?_⟩
  · exact htable ⟨[("a", "A\x7b\x7d")]⟩ [("b", "B")] (by decide) _ _ _ _ ha
  · refine hloader ⟨.ofTable ⟨[("a", "A\x7b\x7d")]⟩, .builtin, 2⟩ _ ?_ _ _ ha
    intro path source hload
    have hmem : (path, source) ∈ [("a", "A\x7b\x7d")] := Loader.mem_entries_of_ofTable hload
    obtain ⟨-, rfl⟩ := Prod.mk.inj (List.mem_singleton.mp hmem)
    rfl

end Build

end StyleSheet

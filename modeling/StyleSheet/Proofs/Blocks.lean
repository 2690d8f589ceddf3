import StyleSheet.Proofs.Trace

/-!
# Blocks and the trace of a run

The output of a program is read off its trace: each opening of a ruleset gives one block, in the
order of the openings, and the declarations of a block are those executed while its ruleset was the
innermost open one, in the order of their execution.

Runs hand their output around in two ways, into the output of the caller or as an output of their
own that is appended later.  `Writes` states what all of them have in common: the events of a
successful run contribute its declarations to the ruleset that is open around it, nothing to any
ruleset further out, and its blocks to the list of blocks.
-/

namespace StyleSheet

namespace Trace

/-- The declarations executed while a ruleset is the innermost open one.  The events are those
after its opening, and `depth` rulesets have been opened since and are still open. -/
def ownDeclarations : Nat → List Event → List String
  | _, [] => []
  | depth, .opened _ :: rest => ownDeclarations (depth + 1) rest
  | 0, .closed :: _ => []
  | depth + 1, .closed :: rest => ownDeclarations depth rest
  | 0, .declared property values important :: rest =>
    Output.declarationText property (values.map Value.shown) important :: ownDeclarations 0 rest
  | depth, _ :: rest => ownDeclarations depth rest

/-- One block for each opening of a ruleset, in the order of the openings. -/
def blocks : List Event → List String
  | [] => []
  | .opened selectors :: rest => Output.block selectors (ownDeclarations 0 rest) :: blocks rest
  | _ :: rest => blocks rest

end Trace

open Trace

/-- The events contribute exactly an output, whatever follows them. -/
structure Writes (out : Output) (es : List Event) : Prop where
  own : ∀ rest, ownDeclarations 0 (es ++ rest) = out.declarations ++ ownDeclarations 0 rest
  /-- Rulesets further out get no declaration. -/
  outer : ∀ depth rest, ownDeclarations (depth + 1) (es ++ rest) = ownDeclarations (depth + 1) rest
  blocks : ∀ rest, Trace.blocks (es ++ rest) = out.blocks ++ Trace.blocks rest

namespace Writes

/-- No events contribute nothing. -/
lemma nil : Writes .empty [] := ⟨fun _ => rfl, fun _ _ => rfl, fun _ => rfl⟩

/-- Events that follow one another contribute both outputs. -/
lemma append {x y : Output} {es fs : List Event} (hx : Writes x es) (hy : Writes y fs) :
    Writes (x ++ y) (es ++ fs) where
  own rest := by
    rw [List.append_assoc, hx.own, hy.own, ← List.append_assoc]
    rfl
  outer depth rest := by rw [List.append_assoc, hx.outer, hy.outer]
  blocks rest := by
    rw [List.append_assoc, hx.blocks, hy.blocks, ← List.append_assoc]
    rfl

/-- The events of a body between the opening and the closing of its ruleset contribute the block of
the ruleset and the blocks of the body. -/
lemma close {body : Output} {es : List Event} (h : Writes body es) (selectors : List String) :
    Writes (body.close selectors) (.opened selectors :: es ++ [.closed]) := by
  have hassoc : ∀ rest, (Event.opened selectors :: es ++ [.closed]) ++ rest =
      .opened selectors :: (es ++ .closed :: rest) := by
    intro rest
    simp
  have hclosed : ∀ rest, ownDeclarations 0 (.closed :: rest) = [] := fun _ => by
    simp [ownDeclarations]
  refine ⟨fun rest => ?_, fun depth rest => ?_, fun rest => ?_⟩
  · rw [hassoc, ownDeclarations, h.outer, ownDeclarations]
    rfl
  · rw [hassoc, ownDeclarations, h.outer, ownDeclarations]
  · rw [hassoc, Trace.blocks, h.own, h.blocks, hclosed, List.append_nil, Trace.blocks]
    · rfl
    · simp

/-- A declaration contributes its text. -/
lemma declared (property : String) (values : List Value) (important : Bool) :
    Writes (.declaration (Output.declarationText property (values.map Value.shown) important))
      [.declared property values important] := by
  refine ⟨fun rest => ?_, fun depth rest => ?_, fun rest => ?_⟩
  · simp [ownDeclarations, Output.declaration]
  · simp [ownDeclarations]
  · simp [Trace.blocks, Output.declaration]

/-- An assignment contributes nothing. -/
lemma assigned (name : String) (isGlobal : Bool) : Writes .empty [.assigned name isGlobal] := by
  refine ⟨fun rest => ?_, fun depth rest => ?_, fun rest => ?_⟩
  · simp [ownDeclarations, Output.empty]
  · simp [ownDeclarations]
  · simp [Trace.blocks, Output.empty]

/-- Entering and leaving the body of a mixin adds nothing to what the body writes. -/
lemma mixinBody {out : Output} {es : List Event} (h : Writes out es) (m : Mixin) :
    Writes out (.entered m :: es ++ [.left]) := by
  refine ⟨fun rest => ?_, fun depth rest => ?_, fun rest => ?_⟩
  · simpa [ownDeclarations] using h.own (.left :: rest)
  · simpa [ownDeclarations] using h.outer depth (.left :: rest)
  · simpa [Trace.blocks] using h.blocks (.left :: rest)

/-- An import contributes what its file does. -/
lemma importedFile {out : Output} {es : List Event} (h : Writes out es) (path : String)
    (sheet : Sheet) : Writes out (.importBegun path sheet :: es ++ [.importEnded]) := by
  refine ⟨fun rest => ?_, fun depth rest => ?_, fun rest => ?_⟩
  · simpa [ownDeclarations] using h.own (.importEnded :: rest)
  · simpa [ownDeclarations] using h.outer depth (.importEnded :: rest)
  · simpa [Trace.blocks] using h.blocks (.importEnded :: rest)

end Writes

namespace Evaluation

namespace Traced

variable {setting : Setting} {deeper : Enclosing → List Stmt → Traced Event Output}
  {enclosing : Enclosing}

/-- Every success writes its output, and outside every ruleset it has no declarations. -/
def Writing (enclosing : Enclosing) (x : Traced Event Output) : Prop :=
  ∀ ⦃s es out t⦄, x s = (es, .ok out, t) →
    Writes out es ∧ (enclosing = none → out.declarations = [])

/-- A run that does nothing writes nothing. -/
lemma writing_pure_empty : Writing enclosing (pure .empty) := by
  intro s es out t h
  cases h
  exact ⟨.nil, fun _ => rfl⟩

/-- A step without events that only gives a value does not change what is written after it. -/
lemma writing_silent_bind {α : Type} {x : Evaluation α} {f : α → Traced Event Output}
    (hf : ∀ a, Writing enclosing (f a)) : Writing enclosing (silent x >>= f) := by
  intro s es out u h
  obtain ⟨fs, a, t, gs, hx, hfa, rfl⟩ := bind_ok h
  obtain ⟨rfl, -⟩ := silent_eq hx
  exact hf a hfa

/-- A failure writes nothing. -/
lemma writing_silent_fail (fault : Fault) (span : Span) :
    Writing enclosing (silent (fail fault span)) := by
  intro s es out t h
  cases h

/-- A choice writes its output if both of its sides do. -/
lemma writing_ite {c : Prop} [Decidable c] {x y : Traced Event Output} (hx : Writing enclosing x)
    (hy : Writing enclosing y) : Writing enclosing (if c then x else y) :=
  iteInduction (fun _ => hx) fun _ => hy

/-- A run in a scope of its own writes the same. -/
lemma Writing.within {x : Traced Event Output} (hx : Writing enclosing x)
    (enter : Environment → Environment) : Writing enclosing (within enter x) := by
  intro s es out t h
  obtain ⟨u, hu, -⟩ := within_eq h
  exact hx hu

/-- Runs that follow one another write both outputs. -/
lemma Writing.append {x y : Traced Event Output} (hx : Writing enclosing x)
    (hy : Writing enclosing y) :
    Writing enclosing (do return (← x) ++ (← y)) := by
  intro s es out t h
  obtain ⟨fs, first, u, gs, hfirst, hrest, rfl⟩ := bind_ok h
  obtain ⟨gs, others, v, hs, hothers, hlast, rfl⟩ := bind_ok hrest
  cases hlast
  obtain ⟨hw, hd⟩ := hx hfirst
  obtain ⟨kw, kd⟩ := hy hothers
  refine ⟨?_, fun hnone => ?_⟩
  · rw [List.append_nil]
    exact hw.append kw
  · change first.declarations ++ others.declarations = []
    rw [hd hnone, kd hnone, List.append_nil]

/-- An assignment writes nothing. -/
lemma writing_assign (name : String) (value : Expr) (isGlobal isDefault : Bool) :
    Writing enclosing (do assign name value isGlobal isDefault; return .empty) := by
  intro s es out t h
  obtain ⟨fs, _, u, gs, hassign, hpure, rfl⟩ := bind_ok h
  cases hpure
  refine ⟨?_, fun _ => rfl⟩
  rw [List.append_nil]
  obtain ⟨fs, r, v, gs, hstate, hrest, rfl⟩ := bind_ok hassign
  obtain ⟨rfl, -⟩ := silent_eq hstate
  dsimp only at hrest
  generalize (isDefault && _) = kept at hrest
  cases kept with
  | true =>
    cases hrest
    exact .nil
  | false =>
    obtain ⟨fs, x, w, gs, hvalue, hstore, rfl⟩ := bind_ok hrest
    obtain ⟨rfl, -⟩ := silent_eq hvalue
    obtain ⟨ls, _, _, ms, hemit, hchange, rfl⟩ := bind_ok hstore
    cases hemit
    obtain ⟨rfl, -⟩ := silent_eq hchange
    exact .assigned name isGlobal

/-- A declaration writes its text. -/
lemma writing_declare (property : Token) (values : List Expr) (important : Bool) (span : Span) :
    Writing enclosing (declare enclosing property values important span) := by
  intro s es out t h
  unfold declare at h
  split at h
  · cases h
  · rename_i hsome
    obtain ⟨fs, vs, u, gs, hvalues, hrest, rfl⟩ := bind_ok h
    obtain ⟨rfl, -⟩ := silent_eq hvalues
    obtain ⟨fs, _, u, gs, hemit, hpure, rfl⟩ := bind_ok hrest
    cases hemit
    cases hpure
    refine ⟨.declared property.text vs important, fun hnone => ?_⟩
    exact absurd (by rw [hnone]; rfl) hsome

/-- A ruleset has no declarations of the ruleset around it. -/
lemma writing_ruleset {header : List Token} {span : Span} {x : List String → Traced Event Output}
    (hx : ∀ selectors, Writing (some selectors) (x selectors)) :
    Writing enclosing (do
      let selectors ← silent (selectorsOf enclosing header span)
      emit (.opened selectors)
      let body ← within (·.push) (x selectors)
      emit .closed
      return body.close selectors) := by
  refine writing_silent_bind fun selectors => ?_
  intro s es out t h
  obtain ⟨fs, body, hbody, rfl, rfl⟩ := between_ok h
  obtain ⟨hw, -⟩ := (hx selectors).within _ hbody
  exact ⟨hw.close selectors, fun _ => rfl⟩

/-- The expansion of a mixin writes what its body does. -/
lemma writing_expand (hdeeper : ∀ statements, Writing enclosing (deeper enclosing statements))
    (name : String) (args : List Expr) (span : Span) :
    Writing enclosing (expand deeper enclosing name args span) := by
  refine writing_silent_bind fun r => ?_
  split
  · exact writing_silent_fail _ _
  · rename_i b _
    refine writing_ite (writing_silent_fail _ _) (writing_silent_bind fun values => ?_)
    intro s es out t h
    obtain ⟨fs, body, hbody, rfl, rfl⟩ := between_ok h
    obtain ⟨hw, hd⟩ := (hdeeper b.mixin.body).within _ hbody
    exact ⟨hw.mixinBody b.mixin, hd⟩

/-- An import writes what its file does. -/
lemma writing_importFile (hdeeper : ∀ statements, Writing enclosing (deeper enclosing statements))
    (path : String) (span : Span) :
    Writing enclosing (importFile setting deeper enclosing path span) := by
  refine writing_silent_bind fun r => writing_ite (writing_silent_fail _ _) ?_
  split
  · exact writing_silent_fail _ _
  · rename_i sheet _
    intro s es out t h
    obtain ⟨fs, body, hbody, rfl, rfl⟩ := between_ok h
    obtain ⟨v, hfile, -⟩ := importing_ok hbody
    obtain ⟨hw, hd⟩ := hdeeper sheet hfile
    exact ⟨hw.importedFile path sheet, hd⟩

/-- Each construct writes its output if the statements inside of it and the bodies of mixins and the
files that it runs do. -/
lemma related_writing
    (hdeeper : ∀ enclosing statements, Writing enclosing (deeper enclosing statements)) :
    Meaning.Related (fun _ => True) (meaning setting deeper) (meaning setting deeper)
      fun enclosing x _ => Writing enclosing x where
  empty _ := writing_pure_empty
  append hx hy := hx.append hy
  assign _ := writing_assign _ _ _ _
  ruleset _ hbody := writing_ruleset hbody
  declare _ := writing_declare _ _ _ _
  mixin _ := writing_silent_bind fun _ => writing_pure_empty
  expand _ := writing_expand (hdeeper _) _ _ _
  importFile _ := writing_importFile (hdeeper _) _ _
  branch _ hyes hno := by
    refine writing_silent_bind fun truth => writing_ite (hyes.within _) ?_
    cases hno with
    | none => exact writing_pure_empty
    | some hno => exact hno.within _
  expr _ := writing_silent_bind fun _ => writing_pure_empty

/-- One statement writes its output if the bodies of mixins and the files that it runs do. -/
lemma writing_run
    (hdeeper : ∀ enclosing statements, Writing enclosing (deeper enclosing statements))
    (s : Stmt) (enclosing : Enclosing) : Writing enclosing (run setting deeper enclosing s) :=
  (related_writing hdeeper).run Stmt.hereditary_true trivial enclosing

/-- Statements write their output one after another. -/
lemma writing_runAll
    (hdeeper : ∀ enclosing statements, Writing enclosing (deeper enclosing statements))
    (statements : List Stmt) (enclosing : Enclosing) :
    Writing enclosing (runAll setting deeper enclosing statements) :=
  (related_writing hdeeper).runAll Stmt.hereditary_true (fun _ _ => trivial) enclosing

/-- By induction on the depth, runs of statements write their output. -/
lemma writing_runUpTo (setting : Setting) (depth : Nat) (enclosing : Enclosing)
    (statements : List Stmt) : Writing enclosing (runUpTo setting depth enclosing statements) := by
  induction depth generalizing enclosing statements with
  | zero =>
    intro s es out t h
    cases h
  | succ depth ih => exact writing_runAll ih statements enclosing

end Traced

/-- A statement outside every ruleset has no declarations, so none are lost when only its blocks are
kept. -/
lemma declarations_runTop {setting : Setting} {stmt : Stmt} {s t : State} {out : Output}
    (h : runTop setting stmt s = (.ok out, t)) : out.declarations = [] := by
  have hwriting : Traced.Writing none
      (Traced.run setting (Traced.runUpTo setting setting.maxDepth) none stmt) :=
    Traced.writing_run (Traced.writing_runUpTo setting setting.maxDepth) stmt none
  have hrun : (Traced.run setting (Traced.runUpTo setting setting.maxDepth) none stmt s).2 =
      (.ok out, t) := by
    rw [← h]
    exact congrFun (Traced.erase_run (Traced.erase_runUpTo setting setting.maxDepth) stmt none) s
  exact (hwriting (Prod.ext rfl hrun)).2 rfl

end Evaluation

namespace Session

open Evaluation

/-- The output of a program that starts with nothing in the queue is one block for each ruleset it
opens, in the order of the openings, with the declarations executed while that ruleset was the
innermost open one.  No declaration is executed outside every ruleset, and a statement that
succeeds there has none. -/
theorem output_eq_blocks_trace (s : Session) (setting : Setting) (sheet : Sheet) (text : String)
    (s' : Session) (hqueue : s.queue = []) (h : s.program setting sheet = (.ok text, s')) :
    ∃ trace out, s.traced setting sheet = (trace, .ok out, s'.state) ∧
      text = "\n".intercalate (Trace.blocks trace) ∧ Trace.ownDeclarations 0 trace = [] ∧
      ∀ stmt t out t', runTop setting stmt t = (.ok out, t') → out.declarations = [] := by
  rw [program_eq_conclude_traced] at h
  rcases htrace : s.traced setting sheet with ⟨trace, out | e | _, t⟩
  all_goals
    rw [htrace] at h
    cases h
  have hdeeper := Traced.writing_runUpTo setting setting.maxDepth
  have hsheet : Traced.Writing none (Traced.runSheet setting sheet) :=
    Traced.writing_runAll hdeeper sheet none
  obtain ⟨hw, hd⟩ := hsheet htrace
  have hblocks : Trace.blocks trace = out.blocks := by
    have hb := hw.blocks []
    rwa [List.append_nil, Trace.blocks, List.append_nil] at hb
  have hown : Trace.ownDeclarations 0 trace = out.declarations := by
    have ho := hw.own []
    rwa [List.append_nil, Trace.ownDeclarations, List.append_nil] at ho
  refine ⟨trace, out, rfl, ?_, hown.trans (hd rfl), fun _ _ _ _ hrun => declarations_runTop hrun⟩
  rw [hqueue, hblocks, List.nil_append]

/-- `@mixin m{z:w} A{x:y; @if true{B{}} @include m; C{}}` -/
def nestedSheet : Sheet :=
  [.mixin "m" []
      ⟨[.declare ⟨.property, "z", .point 0⟩ [.text "w" (.point 0)] false (.point 0)], .point 0⟩
      (.point 0),
    .ruleset [⟨.typeSelector, "A", .point 0⟩]
      [.declare ⟨.property, "x", .point 0⟩ [.text "y" (.point 0)] false (.point 0),
        .branch (.bool true (.point 0))
          ⟨[.ruleset [⟨.typeSelector, "B", .point 0⟩] [] [] (.point 0)], .point 0⟩ none (.point 0),
        .expand "m" [] (.point 0)]
      [.ruleset [⟨.typeSelector, "C", .point 0⟩] [] [] (.point 0)] (.point 0)]

/-- The declaration of the mixin joins the block of `A`, although the ruleset `B` was opened and
closed before it. -/
theorem output_eq_blocks_trace_nestedSheet :
    ∃ trace out s',
      initial.traced { load := fun path => .error (.notFound path), keywords := .builtin }
        nestedSheet = (trace, .ok out, s') ∧
        "A\x7bx:y;z:w;\x7d\nA B\x7b\x7d\nA C\x7b\x7d" =
          "\n".intercalate (Trace.blocks trace) := by
  have htext : (initial.program
      { load := fun path => .error (.notFound path), keywords := .builtin } nestedSheet).1 =
      .ok "A\x7bx:y;z:w;\x7d\nA B\x7b\x7d\nA C\x7b\x7d" := by
    decide +kernel
  obtain ⟨trace, out, htrace, hblocks, -⟩ :=
    output_eq_blocks_trace initial _ nestedSheet _ _ rfl (Prod.ext htext rfl)
  exact ⟨trace, out, _, htrace, hblocks⟩

end Session

end StyleSheet

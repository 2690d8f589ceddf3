import Mathlib
import StyleSheet.Proofs.Blocks

/-!
# The queue over a whole session

A session lasts over many calls.  The blocks of statements that succeed wait in its queue, across
calls and errors, until the output is taken, a program ends with success and returns them, or a
program fails and throws them away.

The *history* of a session lists what its calls do: the statements that they run outside every
ruleset, with their traces and whether they succeed, and the points where the queue is emptied.  It
knows nothing of the queue.  The main statement reads the texts that a session returns off its
history: each is made of the blocks of exactly the statements that succeeded since the queue was
last emptied (`returned_eq_intercalate_waiting`).
-/

namespace StyleSheet

open Evaluation

/-- The trace of a success has the blocks of its output. -/
lemma Writes.blocks_eq {out : Output} {es : List Event} (h : Writes out es) :
    Trace.blocks es = out.blocks := by
  have hblocks := h.blocks []
  rwa [List.append_nil, Trace.blocks, List.append_nil] at hblocks

namespace Evaluation.Traced

/-- As `Evaluation.runTop`. -/
def runTop (setting : Setting) (stmt : Stmt) : Traced Event Output :=
  run setting (runUpTo setting setting.maxDepth) none stmt

/-- The run of a statement with its events does what the plain run does. -/
lemma runTop_eq {setting : Setting} {stmt : Stmt} {s t : State} {trace : List Event}
    {o : Outcome Output} (h : runTop setting stmt s = (trace, o, t)) :
    Evaluation.runTop setting stmt s = (o, t) := by
  have herase : (runTop setting stmt).erase = Evaluation.runTop setting stmt :=
    erase_run (erase_runUpTo setting setting.maxDepth) stmt none
  rw [← herase, erase, h]

/-- The blocks that the events of a statement tell are those of its output. -/
lemma blocks_runTop {setting : Setting} {stmt : Stmt} {s t : State} {trace : List Event}
    {out : Output} (h : runTop setting stmt s = (trace, .ok out, t)) :
    Trace.blocks trace = out.blocks :=
  (writing_run (writing_runUpTo setting setting.maxDepth) stmt none h).1.blocks_eq

end Evaluation.Traced

namespace Session

/-! ### Calls and their history -/

/-- What can be asked of a session. -/
inductive Call where
  | program (sheet : Sheet)
  | statement (stmt : Stmt)
  | expression (e : Expr)
  | takeOutput

/-- The session after a call. -/
def after (s : Session) (setting : Setting) : Call → Session
  | .program sheet => (s.program setting sheet).2
  | .statement stmt => (s.statement setting stmt).2
  | .expression _ => s
  | .takeOutput => s.takeOutput.2

/-- The session after a list of calls. -/
def afterAll (s : Session) (setting : Setting) (calls : List Call) : Session :=
  calls.foldl (fun s call => s.after setting call) s

/-- What a history shows. -/
inductive Entry where
  /-- A statement outside every ruleset was run and succeeded. -/
  | succeeded (trace : List Event)
  /-- A statement outside every ruleset was run and failed. -/
  | failed (trace : List Event)
  /-- The queue was emptied and a text was returned. -/
  | returned (text : String)
  /-- The queue was emptied by a program that failed. -/
  | discarded

namespace Entry

/-- The blocks that a statement puts out.  A statement that fails puts out none, although rulesets
may have been opened and closed in its trace. -/
def blocks : Entry → List String
  | succeeded trace => Trace.blocks trace
  | _ => []

/-- The queue was emptied. -/
def isDrain : Entry → Bool
  | returned _ | discarded => true
  | _ => false

def text? : Entry → Option String
  | returned text => some text
  | _ => none

end Entry

/-- The entries of statements that are run one after another, up to the first that fails. -/
def entries (setting : Setting) : Sheet → State → List Entry
  | [], _ => []
  | stmt :: rest, s =>
    match Traced.runTop setting stmt s with
    | (trace, .ok _, t) => .succeeded trace :: entries setting rest t
    | (trace, _, _) => [.failed trace]

/-- How a program empties the queue. -/
def drain : Outcome String → Entry
  | .ok text => .returned text
  | _ => .discarded

/-- The entries of one call. -/
def record (s : Session) (setting : Setting) : Call → List Entry
  | .program sheet => entries setting sheet s.state ++ [drain (s.program setting sheet).1]
  | .statement stmt => entries setting [stmt] s.state
  | .expression _ => []
  | .takeOutput => [.returned s.takeOutput.1]

/-- The entries of calls that are made one after another. -/
def history (s : Session) (setting : Setting) : List Call → List Entry
  | [] => []
  | call :: rest => s.record setting call ++ (s.after setting call).history setting rest

/-- The blocks of the statements that succeeded since the queue was last emptied. -/
def waiting (es : List Entry) : List String :=
  (es.reverse.takeWhile (fun e => !e.isDrain)).reverse.flatMap Entry.blocks

/-- The blocks of each text that is returned in a history, after a history that came before. -/
def handedOut (past : List Entry) : List Entry → List (List String)
  | [] => []
  | .returned text :: rest => waiting past :: handedOut (past ++ [.returned text]) rest
  | e :: rest => handedOut (past ++ [e]) rest

/-- Nothing waits behind a drain. -/
lemma waiting_append_of_isDrain (es : List Entry) {e : Entry} (h : e.isDrain = true) :
    waiting (es ++ [e]) = [] := by
  simp [waiting, h]

/-- Any other entry adds its blocks to those that wait. -/
lemma waiting_append_of_not_isDrain (es : List Entry) {e : Entry} (h : e.isDrain = false) :
    waiting (es ++ [e]) = waiting es ++ e.blocks := by
  simp [waiting, h]

/-- What is handed out was waiting before or comes from statements that succeed, and nothing is
handed out twice. -/
lemma sublist_flatten_handedOut (past es : List Entry) :
    (handedOut past es).flatten.Sublist (waiting past ++ es.flatMap Entry.blocks) := by
  induction es generalizing past with
  | nil => exact List.nil_sublist _
  | cons e rest ih =>
    have hrest := ih (past ++ [e])
    cases e with
    | succeeded trace =>
      rw [waiting_append_of_not_isDrain past rfl, List.append_assoc] at hrest
      exact hrest
    | failed trace =>
      rw [waiting_append_of_not_isDrain past rfl, List.append_assoc] at hrest
      exact hrest
    | returned text =>
      rw [waiting_append_of_isDrain past rfl] at hrest
      exact hrest.append_left (waiting past)
    | discarded =>
      rw [waiting_append_of_isDrain past rfl] at hrest
      exact hrest.trans (List.sublist_append_right _ _)

/-- Each text of the history is made of the blocks that waited before it. -/
def Truthful (es : List Entry) : Prop :=
  ∀ before text after, es = before ++ .returned text :: after →
    text = "\n".intercalate (waiting before)

/-- No entries are truthful. -/
lemma truthful_nil : Truthful [] := by
  intro before text after h
  simp at h

/-- A history stays truthful when an entry is added that returns nothing or the blocks that wait. -/
lemma Truthful.append {es : List Entry} (h : Truthful es) {e : Entry}
    (he : ∀ text, e = .returned text → text = "\n".intercalate (waiting es)) :
    Truthful (es ++ [e]) := by
  intro before text after heq
  rcases List.eq_nil_or_concat after with rfl | ⟨after, last, rfl⟩
  · obtain ⟨rfl, hlast⟩ := List.append_inj' heq rfl
    exact he text (List.cons.inj hlast).1
  · have hsplit : es ++ [e] = (before ++ .returned text :: after) ++ [last] := by
      rw [heq]
      simp
    exact h before text after (List.append_inj' hsplit rfl).1

/-- The texts of a truthful history are the blocks that it hands out. -/
lemma Truthful.filterMap_text? {past es : List Entry} (h : Truthful (past ++ es)) :
    es.filterMap Entry.text? = (handedOut past es).map ("\n".intercalate ·) := by
  induction es generalizing past with
  | nil => rfl
  | cons e rest ih =>
    have hrest : rest.filterMap Entry.text? =
        (handedOut (past ++ [e]) rest).map ("\n".intercalate ·) := ih (by simpa using h)
    cases e with
    | returned text =>
      have htext : text = "\n".intercalate (waiting past) := h past text rest rfl
      simp [Entry.text?, handedOut, ← htext, hrest]
    | _ => exact hrest

/-! ### The queue and the history -/

/-- The queue holds the blocks that wait after a history, and the texts of the history are right. -/
structure Recorded (s : Session) (past : List Entry) : Prop where
  queue : s.queue = waiting past
  truthful : Truthful past

namespace Recorded

variable {s : Session} {past : List Entry} {setting : Setting}

/-- A statement that succeeds adds its blocks to the queue. -/
lemma succeeded (h : s.Recorded past) {stmt : Stmt} {trace : List Event} {out : Output} {t : State}
    (hrun : Traced.runTop setting stmt s.state = (trace, .ok out, t)) :
    Recorded ⟨t, s.queue ++ out.blocks⟩ (past ++ [.succeeded trace]) := by
  refine ⟨?_, h.truthful.append nofun⟩
  rw [waiting_append_of_not_isDrain past rfl, h.queue]
  exact congrArg _ (Traced.blocks_runTop hrun).symm

/-- A statement that fails leaves the queue alone. -/
lemma failed (h : s.Recorded past) (trace : List Event) (t : State) :
    Recorded ⟨t, s.queue⟩ (past ++ [.failed trace]) := by
  refine ⟨?_, h.truthful.append nofun⟩
  rw [waiting_append_of_not_isDrain past rfl, h.queue]
  exact (List.append_nil _).symm

/-- The output that is returned is made of what waits. -/
lemma returned (h : s.Recorded past) : s.drained.Recorded (past ++ [.returned s.output]) := by
  refine ⟨(waiting_append_of_isDrain past rfl).symm, h.truthful.append fun text htext => ?_⟩
  obtain rfl := Entry.returned.inj htext
  rw [output, h.queue]

/-- A session that is drained is recorded with the entry that says so. -/
lemma discarded (h : s.Recorded past) : s.drained.Recorded (past ++ [.discarded]) :=
  ⟨(waiting_append_of_isDrain past rfl).symm, h.truthful.append nofun⟩

/-- A session stays recorded over a statement. -/
lemma statement (h : s.Recorded past) (stmt : Stmt) :
    (s.statement setting stmt).2.Recorded (past ++ entries setting [stmt] s.state) := by
  obtain ⟨v, hstmt⟩ := s.statement_eq setting stmt
  rcases hrun : Traced.runTop setting stmt s.state with ⟨trace, out | e | _, t⟩
  all_goals rw [hstmt, Traced.runTop_eq hrun, entries, hrun]
  · exact h.succeeded hrun
  · exact h.failed trace t
  · exact h.failed trace t

/-- A program empties the queue at its end, whether it succeeds or fails. -/
lemma program (h : s.Recorded past) (sheet : Sheet) :
    (s.program setting sheet).2.Recorded (past ++ s.record setting (.program sheet)) := by
  induction sheet generalizing s past with
  | nil => exact h.returned
  | cons stmt rest ih =>
    obtain ⟨v, hstmt⟩ := s.statement_eq setting stmt
    rcases hrun : Traced.runTop setting stmt s.state with ⟨trace, out | e | _, t⟩
    all_goals
      rw [Traced.runTop_eq hrun] at hstmt
      rw [record, Session.program, hstmt, entries, hrun]
    · have hrest := ih (h.succeeded hrun)
      rw [List.append_assoc] at hrest
      exact hrest
    · have hdrained := (h.failed trace t).discarded
      rw [List.append_assoc] at hdrained
      exact hdrained
    · have hdrained := (h.failed trace t).discarded
      rw [List.append_assoc] at hdrained
      exact hdrained

/-- Every call keeps the queue in step with the history. -/
lemma after (h : s.Recorded past) (call : Call) :
    (s.after setting call).Recorded (past ++ s.record setting call) := by
  cases call with
  | program sheet => exact h.program sheet
  | statement stmt => exact h.statement stmt
  | expression e =>
    rw [record, List.append_nil]
    exact h
  | takeOutput => exact h.returned

/-- A session stays recorded over all its calls. -/
lemma afterAll (h : s.Recorded past) (calls : List Call) :
    (s.afterAll setting calls).Recorded (past ++ s.history setting calls) := by
  induction calls generalizing s past with
  | nil =>
    rw [history, List.append_nil]
    exact h
  | cons call rest ih =>
    rw [history, ← List.append_assoc]
    exact ih (h.after call)

end Recorded

/-- Over all calls of a session, each text that is returned is made of the blocks of exactly the
statements that succeeded since the queue was last emptied, in order.  Put one after another, the
blocks of all texts are some of the blocks of the statements that succeeded, in the same order, so
none is returned twice. -/
theorem returned_eq_intercalate_waiting (setting : Setting) (calls : List Call) :
    (∀ before text after, initial.history setting calls = before ++ .returned text :: after →
      text = "\n".intercalate (waiting before)) ∧
    (initial.history setting calls).filterMap Entry.text? =
      (handedOut [] (initial.history setting calls)).map ("\n".intercalate ·) ∧
    (handedOut [] (initial.history setting calls)).flatten.Sublist
      ((initial.history setting calls).flatMap Entry.blocks) := by
  have hinitial : initial.Recorded [] := ⟨rfl, truthful_nil⟩
  have htruthful : Truthful (initial.history setting calls) := (hinitial.afterAll calls).truthful
  exact ⟨htruthful, htruthful.filterMap_text?, sublist_flatten_handedOut [] _⟩

/-- `X{Y{} Z{x: $u}}` -/
def failingRuleset : Stmt :=
  .ruleset [⟨.typeSelector, "X", .point 0⟩] []
    [.ruleset [⟨.typeSelector, "Y", .point 0⟩] [] [] (.point 0),
      .ruleset [⟨.typeSelector, "Z", .point 0⟩]
        [.declare ⟨.property, "x", .point 0⟩ [.var "$u" (.point 0)] false (.point 0)] [] (.point 0)]
    (.point 0)

def emptyRuleset (selector : String) : Stmt :=
  .ruleset [⟨.typeSelector, selector, .point 0⟩] [] [] (.point 0)

/-- A statement that succeeds and one that fails, then their output; a program that fails after a
success, a statement, and a program that succeeds. -/
def mixedCalls : List Call :=
  [.statement (emptyRuleset "A"), .statement failingRuleset, .takeOutput,
    .program [emptyRuleset "B", failingRuleset], .statement (emptyRuleset "C"),
    .program [emptyRuleset "D"]]

/-- The history of these calls up to the last text. -/
def mixedHistory : List Entry :=
  [.succeeded [.opened ["A"], .closed],
    .failed [.opened ["X"], .opened ["X Y"], .closed, .opened ["X Z"]], .returned "A\x7b\x7d",
    .succeeded [.opened ["B"], .closed],
    .failed [.opened ["X"], .opened ["X Y"], .closed, .opened ["X Z"]], .discarded,
    .succeeded [.opened ["C"], .closed], .succeeded [.opened ["D"], .closed]]

/-- A setting in which there is nothing to import. -/
def fileless : Setting where
  load path := .error (.notFound path)
  keywords := .builtin

/-- The last text holds the blocks of `C` and `D`.  That of `A` was returned before, that of `B` was
thrown away, and the rulesets that were closed in the statements that failed have none. -/
theorem returned_eq_intercalate_waiting_mixedCalls :
    initial.history fileless mixedCalls = mixedHistory ++ [.returned "C\x7b\x7d\nD\x7b\x7d"] ∧
    "C\x7b\x7d\nD\x7b\x7d" = "\n".intercalate (waiting mixedHistory) ∧
    waiting mixedHistory = ["C\x7b\x7d", "D\x7b\x7d"] ∧
    (handedOut [] (initial.history fileless mixedCalls)).flatten.Sublist
      ["A\x7b\x7d", "B\x7b\x7d", "C\x7b\x7d", "D\x7b\x7d"] := by
  have hhistory : initial.history fileless mixedCalls =
      mixedHistory ++ [.returned "C\x7b\x7d\nD\x7b\x7d"] := by cbv
  have hblocks : (initial.history fileless mixedCalls).flatMap Entry.blocks =
      ["A\x7b\x7d", "B\x7b\x7d", "C\x7b\x7d", "D\x7b\x7d"] := by cbv
  obtain ⟨htexts, -, hsublist⟩ := returned_eq_intercalate_waiting fileless mixedCalls
  rw [hblocks] at hsublist
  exact ⟨hhistory, htexts mixedHistory _ [] hhistory, by cbv, hsublist⟩

end Session

end StyleSheet

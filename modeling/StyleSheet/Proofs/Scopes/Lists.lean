import Mathlib
import StyleSheet.Scope.Workspace

/-!
# Stacks as plain lists

A `Stack` keeps its global scope apart from the scopes above it, so it cannot be empty.  Here the
entered scopes are one plain list, which any list could be.  Leaving a scope takes the first scope
off only if there is another one, and the innermost scope is the first of the list, or the global
one where the list is empty.

The workspaces over such lists run the same actions.  One action is simulated by `toLists_apply`
and a run by `toLists_run`.  So what holds of the stacks after a run holds of the lists, and no run
empties a list or takes the global scope from the end of one, although nothing in the type of the
lists says so.
-/

namespace StyleSheet

/-- A global scope and a list of the scopes that were entered and not yet left, innermost first. -/
structure ListStack where
  global : ScopeId
  entered : List ScopeId

namespace ListStack

/-- The first scope of the list, or the global one if there is none. -/
def current (s : ListStack) : ScopeId := s.entered.headD s.global

def enter (s : ListStack) (id : ScopeId) : ListStack := { s with entered := id :: s.entered }

/-- Takes the first scope off the list unless it is the only one. -/
def leave (s : ListStack) : ListStack :=
  if 1 < s.entered.length then { s with entered := s.entered.tail } else s

/-- The list that holds only the same global scope. -/
def bottom (s : ListStack) : ListStack := ⟨s.global, [s.global]⟩

end ListStack

/-- A workspace whose stacks are plain lists. -/
structure ListWorkspace where
  scopes : Scopes
  running : Array ListStack
  saved : Table ScopeId
  bindings : Table MixinBinding

namespace ListWorkspace

/-- One stack that holds only an empty global scope. -/
def initial : ListWorkspace := ⟨#[.below none], #[⟨0, [0]⟩], .empty, .empty⟩

/-- Goes on with one of the stacks, and changes nothing if there is no such stack. -/
def withStack (w : ListWorkspace) (i : Nat) (f : ListStack → ListWorkspace) : ListWorkspace :=
  match w.running[i]? with
  | some s => f s
  | none => w

/-- Enters a new scope below a given one on one of the stacks. -/
def enterBelow (w : ListWorkspace) (i : Nat) (s : ListStack) (parent : ScopeId) : ListWorkspace :=
  { w with
    scopes := w.scopes.push (.below (some parent))
    running := w.running.setIfInBounds i (s.enter w.scopes.size) }

def save (w : ListWorkspace) (handle : String) (id : ScopeId) : ListWorkspace :=
  { w with saved := w.saved.insert handle id }

/-- Whether a scope is on a list or saved, or is passed by a look-up from such a scope. -/
def isAlive (w : ListWorkspace) (id : ScopeId) : Bool :=
  w.scopes.isAlive (w.running.toList.flatMap ListStack.entered ++ w.saved.values) id

/-- The workspace after an action; one that names no stack or no handle changes nothing. -/
def apply (w : ListWorkspace) : Workspace.Action → ListWorkspace
  | .push i => w.withStack i fun s => w.enterBelow i s s.current
  | .pop i => w.withStack i fun s => { w with running := w.running.setIfInBounds i s.leave }
  | .pushIn i handle =>
    match w.saved.get? handle with
    | some id => w.withStack i fun s => w.enterBelow i s id
    | none => w
  | .define i name value =>
    w.withStack i fun s => { w with scopes := w.scopes.define s.current name value }
  | .defineGlobal i name value =>
    w.withStack i fun s => { w with scopes := w.scopes.define s.global name value }
  | .defineMixin i mixin =>
    w.withStack i fun s => { w with scopes := w.scopes.defineMixin s.current mixin }
  | .child i => w.withStack i fun s => { w with running := w.running.push s.bottom }
  | .saveCurrent i handle => w.withStack i fun s => w.save handle s.current
  | .saveGlobal i handle => w.withStack i fun s => w.save handle s.global
  | .drop handle => { w with saved := w.saved.erase handle }
  | .defineIn handle name value =>
    match w.saved.get? handle with
    | some id => { w with scopes := w.scopes.define id name value }
    | none => w
  | .keepMixin i name binding =>
    w.withStack i fun s =>
      match w.scopes.lookupMixin s.current name with
      | some b => { w with bindings := w.bindings.insert binding b }
      | none => w
  | .saveHome binding handle =>
    match w.bindings.get? binding with
    | some b => if w.isAlive b.home then w.save handle b.home else w
    | none => w

/-- The workspace after a list of actions. -/
def run (w : ListWorkspace) (actions : List Workspace.Action) : ListWorkspace :=
  actions.foldl apply w

end ListWorkspace

/-! ### A stack as a list -/

namespace Stack

/-- The same scopes with the global one at the end of the list. -/
def toListStack (s : Stack) : ListStack := ⟨s.root, s.toList⟩

variable (s : Stack)

/-- The list of a stack ends with the global scope. -/
lemma getLast?_toListStack : s.toListStack.entered.getLast? = some s.root := by
  simp [toListStack, toList]

/-- The list of a stack is not empty, so its first scope is the innermost one. -/
lemma current_toListStack : s.toListStack.current = s.current := by
  have hhead := s.head?_toList
  simp [ListStack.current, toListStack, List.headD_eq_head?_getD, hhead]

/-- Leaving a scope is the same on both: on the list it is the guard that keeps the global
scope. -/
lemma toListStack_leave : s.leave.toListStack = s.toListStack.leave := by
  obtain ⟨root, inner⟩ := s
  cases inner with
  | nil => rfl
  | cons id rest => simp [toListStack, leave, ListStack.leave, toList]

/-- Keeping only the global scope is the same on both. -/
lemma toListStack_bottom : s.bottom.toListStack = s.toListStack.bottom := rfl

end Stack

/-! ### A workspace over lists -/

namespace Workspace

/-- The same workspace with its stacks as lists. -/
def toLists (w : Workspace) : ListWorkspace :=
  ⟨w.scopes, w.running.map Stack.toListStack, w.saved, w.bindings⟩

variable {w : Workspace}

/-- What an action does with one of the stacks is simulated if it is so for each stack. -/
lemma toLists_of_running {i : Nat} {f : Stack → Workspace} {g : ListStack → ListWorkspace}
    (h : ∀ s, w.running[i]? = some s → (f s).toLists = g s.toListStack) :
    (match w.running[i]? with
      | some s => f s
      | none => w).toLists = w.toLists.withStack i g := by
  cases hs : w.running[i]? with
  | none => simp [ListWorkspace.withStack, toLists, hs]
  | some s =>
    have hlist : w.toLists.running[i]? = some s.toListStack := by simp [toLists, hs]
    simp only [ListWorkspace.withStack, hlist]
    exact h s hs

/-- The same scopes live on both sides. -/
lemma isAlive_toLists (w : Workspace) (id : ScopeId) : w.toLists.isAlive id = w.isAlive id := by
  simp [ListWorkspace.isAlive, isAlive, holders, toLists, List.flatMap_map, Stack.toListStack]

/-- An operation on one of the stacks is simulated if it is simulated on the environment of that
stack. -/
lemma toLists_update {i : Nat} {f : Environment → Environment} {g : ListStack → ListWorkspace}
    (hg : ∀ s, w.running[i]? = some s → g s.toListStack =
      ⟨(f ⟨w.scopes, s⟩).scopes,
        w.toLists.running.setIfInBounds i (f ⟨w.scopes, s⟩).stack.toListStack, w.saved,
        w.bindings⟩) :
    (w.update i f).toLists = w.toLists.withStack i g := by
  rw [← toLists_of_running (fun s hs => ?_), update, environment?]
  · cases w.running[i]? with
    | none => rfl
    | some s => rfl
  · rw [hg s hs]
    simp [toLists]

/-- A change inside one scope is simulated: it leaves the stacks alone. -/
lemma toLists_update_scopes {i : Nat} {f : Environment → Environment} {h : ListStack → Scopes}
    (hstack : ∀ e, (f e).stack = e.stack)
    (hscopes : ∀ s, h s.toListStack = (f ⟨w.scopes, s⟩).scopes) :
    (w.update i f).toLists = w.toLists.withStack i fun s => { w.toLists with scopes := h s } := by
  refine toLists_update fun s hs => ?_
  -- the list that is put back is the one that is there
  obtain ⟨hi, hget⟩ : ∃ hi, w.toLists.running[i] = s.toListStack := by
    rw [← Array.getElem?_eq_some_iff]
    simp [toLists, hs]
  have hsame : w.toLists.running.setIfInBounds i s.toListStack = w.toLists.running := by
    rw [← hget, Array.setIfInBounds_def, dif_pos hi, Array.set_getElem_self]
  rw [hstack, hscopes, hsame]
  rfl

/-- Entering a scope on one of the stacks is simulated. -/
lemma toLists_update_pushIn {i : Nat} (parent : Stack → ScopeId) (above : ListStack → ScopeId)
    (h : ∀ s : Stack, above s.toListStack = parent s) :
    (w.update i fun e => e.pushIn (parent e.stack)).toLists =
      w.toLists.withStack i fun s => w.toLists.enterBelow i s (above s) := by
  refine toLists_update fun s _ => ?_
  rw [h]
  rfl

/-- An action on stacks is simulated by the same action on lists. -/
lemma toLists_apply (w : Workspace) (action : Action) :
    (w.apply action).toLists = w.toLists.apply action := by
  have hsaved : w.toLists.saved = w.saved := rfl
  have hbindings : w.toLists.bindings = w.bindings := rfl
  have hscopes : w.toLists.scopes = w.scopes := rfl
  -- operations on one stack go through the environment of that stack; the others only look at it
  cases action with
  | push i => exact toLists_update_pushIn _ _ Stack.current_toListStack
  | pop i =>
    refine toLists_update fun s _ => ?_
    rw [← Stack.toListStack_leave]
    rfl
  | pushIn i handle =>
    simp only [apply, ListWorkspace.apply, hsaved]
    cases w.saved.get? handle with
    | none => rfl
    | some id => exact toLists_update_pushIn (fun _ => id) (fun _ => id) fun _ => rfl
  | define i name value =>
    refine toLists_update_scopes (fun _ => rfl) fun s => ?_
    rw [Stack.current_toListStack]
    rfl
  | defineGlobal i name value => exact toLists_update_scopes (fun _ => rfl) fun _ => rfl
  | defineMixin i mixin =>
    refine toLists_update_scopes (fun _ => rfl) fun s => ?_
    rw [Stack.current_toListStack]
    rfl
  | child i =>
    refine toLists_of_running fun s _ => ?_
    simp [toLists, Stack.toListStack_bottom]
  | saveCurrent i handle =>
    refine toLists_of_running fun s _ => ?_
    rw [Stack.current_toListStack]
    rfl
  | saveGlobal i handle => exact toLists_of_running fun _ _ => rfl
  | drop handle => rfl
  | defineIn handle name value =>
    simp only [apply, ListWorkspace.apply, hsaved]
    cases w.saved.get? handle with
    | none => rfl
    | some id => rfl
  | keepMixin i name binding =>
    have hkeep : w.apply (.keepMixin i name binding) =
        match w.running[i]? with
        | some s =>
          match w.scopes.lookupMixin s.current name with
          | some b => { w with bindings := w.bindings.insert binding b }
          | none => w
        | none => w := by
      rw [apply, environment?]
      cases w.running[i]? with
      | none => rfl
      | some s => rfl
    rw [hkeep]
    refine toLists_of_running fun s _ => ?_
    rw [Stack.current_toListStack, hscopes]
    cases w.scopes.lookupMixin s.current name with
    | none => rfl
    | some b => rfl
  | saveHome binding handle =>
    simp only [apply, ListWorkspace.apply, isAlive_toLists, hbindings]
    cases w.bindings.get? binding with
    | none => rfl
    | some b => exact apply_ite toLists (w.isAlive b.home = true) (w.save handle b.home) w

/-- A run on stacks is simulated by the same run on lists. -/
lemma toLists_run (w : Workspace) (actions : List Action) :
    (w.run actions).toLists = w.toLists.run actions := by
  induction actions generalizing w with
  | nil => rfl
  | cons action rest ih =>
    have hstep : w.run (action :: rest) = (w.apply action).run rest := rfl
    rw [hstep, ih, toLists_apply]
    rfl

/-- The runs start alike. -/
lemma toLists_initial : initial.toLists = .initial := by
  simp [toLists, initial, Environment.initial, ListWorkspace.initial, Stack.toListStack,
    Stack.toList]

end Workspace

/-- After any actions on lists each list is the list of a stack after the same actions. -/
lemma ListWorkspace.exists_stack_of_mem_run {actions : List Workspace.Action} {s : ListStack}
    (hs : s ∈ (ListWorkspace.initial.run actions).running) :
    ∃ stack ∈ (Workspace.initial.run actions).running, stack.toListStack = s := by
  rw [← Workspace.toLists_initial, ← Workspace.toLists_run] at hs
  exact Array.mem_map.mp hs

end StyleSheet

import StyleSheet.Scope

/-!
# Several stacks over one set of scopes

A workspace holds stacks that share their scopes, and handles on scopes and on mixins that were
looked up.  Whether the scope of a mixin still lives depends on all stacks and all handles.
-/

namespace StyleSheet

structure Workspace where
  scopes : Scopes
  running : Array Stack
  /-- Handles on scopes. -/
  saved : Table ScopeId
  /-- Mixins that were looked up and kept. -/
  bindings : Table MixinBinding

namespace Workspace

/-- One stack with only an empty global scope. -/
def initial : Workspace :=
  let e := Environment.initial
  ⟨e.scopes, #[e.stack], .empty, .empty⟩

/-- One of the stacks with the scopes. -/
def environment? (w : Workspace) (i : Nat) : Option Environment :=
  w.running[i]?.map fun stack => ⟨w.scopes, stack⟩

/-- What happens to a workspace.  The numbers pick a stack. -/
inductive Action where
  | push (i : Nat)
  | pop (i : Nat)
  /-- Enters a new scope below a saved one. -/
  | pushIn (i : Nat) (handle : String)
  | define (i : Nat) (name : String) (value : Value)
  | defineGlobal (i : Nat) (name : String) (value : Value)
  | defineMixin (i : Nat) (mixin : Mixin)
  /-- Adds a stack with the same global scope. -/
  | child (i : Nat)
  | saveCurrent (i : Nat) (handle : String)
  | saveGlobal (i : Nat) (handle : String)
  | drop (handle : String)
  /-- Binds a variable in a saved scope. -/
  | defineIn (handle : String) (name : String) (value : Value)
  /-- Keeps what a mixin name means at present. -/
  | keepMixin (i : Nat) (name : String) (binding : String)
  /-- Saves the scope that a kept mixin was declared in, if it still lives. -/
  | saveHome (binding : String) (handle : String)

/-- Changes one stack and the scopes. -/
def update (w : Workspace) (i : Nat) (f : Environment → Environment) : Workspace :=
  match w.environment? i with
  | none => w
  | some e => { w with scopes := (f e).scopes, running := w.running.setIfInBounds i (f e).stack }

def save (w : Workspace) (handle : String) (id : ScopeId) : Workspace :=
  { w with saved := w.saved.insert handle id }

/-- The scopes that are on a stack or saved. -/
def holders (w : Workspace) : List ScopeId :=
  w.running.toList.flatMap Stack.toList ++ w.saved.values

/-- Whether a scope still lives. -/
def isAlive (w : Workspace) (id : ScopeId) : Bool := w.scopes.isAlive w.holders id

/-- The workspace after an action; one that names no stack or no handle changes nothing. -/
def apply (w : Workspace) : Action → Workspace
  | .push i => w.update i (·.push)
  | .pop i => w.update i (·.pop)
  | .pushIn i handle =>
    match w.saved.get? handle with
    | some id => w.update i (·.pushIn id)
    | none => w
  | .define i name value => w.update i (·.define name value)
  | .defineGlobal i name value => w.update i (·.defineGlobal name value)
  | .defineMixin i mixin => w.update i (·.defineMixin mixin)
  | .child i =>
    match w.running[i]? with
    | some stack => { w with running := w.running.push stack.bottom }
    | none => w
  | .saveCurrent i handle =>
    match w.running[i]? with
    | some stack => w.save handle stack.current
    | none => w
  | .saveGlobal i handle =>
    match w.running[i]? with
    | some stack => w.save handle stack.root
    | none => w
  | .drop handle => { w with saved := w.saved.erase handle }
  | .defineIn handle name value =>
    match w.saved.get? handle with
    | some id => { w with scopes := w.scopes.define id name value }
    | none => w
  | .keepMixin i name binding =>
    match (w.environment? i).bind (·.lookupMixin name) with
    | some b => { w with bindings := w.bindings.insert binding b }
    | none => w
  | .saveHome binding handle =>
    match w.bindings.get? binding with
    | some b => if w.isAlive b.home then w.save handle b.home else w
    | none => w

/-- The workspace after a list of actions. -/
def run (w : Workspace) (actions : List Action) : Workspace := actions.foldl apply w

/-- Whether a kept mixin was declared in a saved scope, and that scope still lives. -/
def isHome (w : Workspace) (binding handle : String) : Bool :=
  match w.bindings.get? binding, w.saved.get? handle with
  | some b, some id => w.isAlive b.home && b.home == id
  | _, _ => false

end Workspace

end StyleSheet

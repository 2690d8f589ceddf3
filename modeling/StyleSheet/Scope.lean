import StyleSheet.Sheet
import StyleSheet.Table
import StyleSheet.Value

/-!
# Scopes

Variables and mixins are bound in scopes.  A scope can have a parent, and a name that is not
bound in a scope is looked up in its parent.

All scopes stand in one array in the order in which they were made, and a scope is named by its
place there.  The parent of a scope is always an older one, so the scopes that a look-up passes
form a finite chain.

A mixin remembers the scope it was declared in.  It is expanded in a new scope below that one, so
its body sees what was visible where it was written and nothing of the place it is expanded at.
-/

namespace StyleSheet

/-- The name of a scope: the number of scopes that are older. -/
abbrev ScopeId := Nat

structure Mixin where
  name : String
  params : List String
  body : List Stmt

/-- A mixin with the scope it was declared in. -/
structure MixinBinding where
  mixin : Mixin
  home : ScopeId

structure Scope where
  parent : Option ScopeId
  values : Table Value
  mixins : Table MixinBinding

namespace Scope

/-- A scope that binds nothing. -/
def below (parent : Option ScopeId) : Scope := ⟨parent, .empty, .empty⟩

def define (s : Scope) (name : String) (v : Value) : Scope :=
  { s with values := s.values.insert name v }

def defineMixin (s : Scope) (b : MixinBinding) : Scope :=
  { s with mixins := s.mixins.insert b.mixin.name b }

end Scope

/-- All scopes, oldest first. -/
abbrev Scopes := Array Scope

namespace Scopes

/-- A scope, its parent, the parent of that one, and so on. -/
def chain (scopes : Scopes) (id : ScopeId) : List ScopeId :=
  match scopes[id]? with
  | none => []
  | some s =>
    id ::
      match s.parent with
      | none => []
      | some parent => if parent < id then chain scopes parent else []
termination_by id

def valueAt? (scopes : Scopes) (name : String) (id : ScopeId) : Option Value :=
  scopes[id]?.bind (·.values.get? name)

def mixinAt? (scopes : Scopes) (name : String) (id : ScopeId) : Option MixinBinding :=
  scopes[id]?.bind (·.mixins.get? name)

/-- The value of a variable in the nearest scope of the chain that binds it. -/
def lookup (scopes : Scopes) (id : ScopeId) (name : String) : Option Value :=
  (scopes.chain id).findSome? (scopes.valueAt? name)

/-- The mixin of a name in the nearest scope of the chain that binds it. -/
def lookupMixin (scopes : Scopes) (id : ScopeId) (name : String) : Option MixinBinding :=
  (scopes.chain id).findSome? (scopes.mixinAt? name)

def define (scopes : Scopes) (id : ScopeId) (name : String) (v : Value) : Scopes :=
  scopes.modify id (·.define name v)

/-- Declares a mixin in a scope. -/
def defineMixin (scopes : Scopes) (id : ScopeId) (m : Mixin) : Scopes :=
  scopes.modify id (·.defineMixin ⟨m, id⟩)

/-- A scope lives while something holds it or a scope below it. -/
def isAlive (scopes : Scopes) (holders : List ScopeId) (id : ScopeId) : Bool :=
  holders.any (fun holder => (scopes.chain holder).contains id)

end Scopes

/-- The scopes that were entered and not yet left: a global one and those above it. -/
structure Stack where
  root : ScopeId
  /-- The scopes above the global one, innermost first. -/
  inner : List ScopeId
  deriving DecidableEq

namespace Stack

/-- All scopes of the stack, innermost first. -/
def toList (s : Stack) : List ScopeId := s.inner ++ [s.root]

def depth (s : Stack) : Nat := s.inner.length + 1

/-- The innermost scope. -/
def current (s : Stack) : ScopeId := s.inner.headD s.root

def enter (s : Stack) (id : ScopeId) : Stack := { s with inner := id :: s.inner }

/-- Leaves the innermost scope; the global one is never left. -/
def leave (s : Stack) : Stack := { s with inner := s.inner.tail }

/-- A stack with nothing above the same global scope. -/
def bottom (s : Stack) : Stack := ⟨s.root, []⟩

/-- Leaving a scope that was just entered gives the stack back. -/
theorem leave_enter (s : Stack) (id : ScopeId) : (s.enter id).leave = s := rfl

/-- A scope that was just entered is the innermost one. -/
theorem current_enter (s : Stack) (id : ScopeId) : (s.enter id).current = id := rfl

/-- The innermost scope is the first of the list. -/
theorem head?_toList (s : Stack) : s.toList.head? = some s.current := by
  cases h : s.inner with
  | nil => simp [toList, current, h]
  | cons id rest => simp [toList, current, h]

end Stack

/-- The scopes with the stack of those that are entered. -/
structure Environment where
  scopes : Scopes
  stack : Stack

namespace Environment

/-- An empty global scope. -/
def initial : Environment := ⟨#[.below none], ⟨0, []⟩⟩

/-- Enters a new scope below a given one. -/
def pushIn (e : Environment) (parent : ScopeId) : Environment :=
  ⟨e.scopes.push (.below (some parent)), e.stack.enter e.scopes.size⟩

/-- Enters a new scope below the innermost one. -/
def push (e : Environment) : Environment := e.pushIn e.stack.current

def pop (e : Environment) : Environment := { e with stack := e.stack.leave }

def lookup (e : Environment) (name : String) : Option Value :=
  e.scopes.lookup e.stack.current name

/-- The value that the global scope itself binds a variable to. -/
def lookupGlobal (e : Environment) (name : String) : Option Value :=
  e.scopes.valueAt? name e.stack.root

/-- The value that the innermost scope itself binds a variable to. -/
def lookupLocal (e : Environment) (name : String) : Option Value :=
  e.scopes.valueAt? name e.stack.current

def lookupMixin (e : Environment) (name : String) : Option MixinBinding :=
  e.scopes.lookupMixin e.stack.current name

def define (e : Environment) (name : String) (v : Value) : Environment :=
  { e with scopes := e.scopes.define e.stack.current name v }

def defineGlobal (e : Environment) (name : String) (v : Value) : Environment :=
  { e with scopes := e.scopes.define e.stack.root name v }

def defineMixin (e : Environment) (m : Mixin) : Environment :=
  { e with scopes := e.scopes.defineMixin e.stack.current m }

end Environment

end StyleSheet

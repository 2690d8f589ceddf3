import Mathlib.Tactic.Lemma
import StyleSheet.Evaluation.Statement

/-!
# The graph of scopes

In an environment that was built step by step from an empty global scope, each scope but the global
one has an older scope as its parent, and each mixin that a scope binds was declared in that very
scope.  An environment with these properties is *well formed*.

So the chain of every scope goes down to the global scope (`WellFormed.chain_eq`), and a mixin that
is found has a home on the chain, which lives as long as the scope that the search began in
(`WellFormed.isAlive_of_lookupMixin`).
-/

namespace StyleSheet

/-- The global scope exists and is the only one without a parent, parents are older than their
children, and mixins are bound where they were declared. -/
structure Environment.WellFormed (e : Environment) : Prop where
  root_lt : e.stack.root < e.scopes.size
  parent_lt : ∀ {id p : ScopeId} {x : Scope}, e.scopes[id]? = some x → x.parent = some p → p < id
  parent_eq_none_iff : ∀ {id : ScopeId} {x : Scope}, e.scopes[id]? = some x →
    (x.parent = none ↔ id = e.stack.root)
  home_eq : ∀ {id : ScopeId} {x : Scope} {name : String} {b : MixinBinding},
    e.scopes[id]? = some x → x.mixins.get? name = some b → b.home = id

namespace Environment

variable {e : Environment}

/-- A single global scope is well formed. -/
lemma wellFormed_initial : initial.WellFormed := by
  have honly : ∀ {id x}, initial.scopes[id]? = some x → id = 0 ∧ x = .below none := by
    intro id x hx
    cases id with
    | zero =>
      simp only [initial, List.getElem?_toArray, List.getElem?_cons_zero, Option.some.injEq] at hx
      exact ⟨rfl, hx.symm⟩
    | succ id => simp [initial] at hx
  refine ⟨by simp [initial], ?_, ?_, ?_⟩
  · intro id p x hx hp
    obtain ⟨-, rfl⟩ := honly hx
    simp [Scope.below] at hp
  · intro id x hx
    obtain ⟨rfl, rfl⟩ := honly hx
    simp [initial, Scope.below]
  · intro id x name b hx hb
    obtain ⟨-, rfl⟩ := honly hx
    simp [Scope.below, Table.empty, Table.get?] at hb

namespace WellFormed

/-! ### What keeps an environment well formed -/

/-- A stack above the same global scope may take the place of the stack. -/
lemma withStack (h : e.WellFormed) {stack : Stack} (hroot : stack.root = e.stack.root) :
    WellFormed { e with stack := stack } := by
  refine ⟨?_, h.parent_lt, fun hx => ?_, h.home_eq⟩
  · rw [hroot]
    exact h.root_lt
  · rw [h.parent_eq_none_iff hx, hroot]

/-- The scopes stay well formed when one is entered below one that exists. -/
lemma pushIn (h : e.WellFormed) {parent : ScopeId} (hparent : parent < e.scopes.size) :
    (e.pushIn parent).WellFormed := by
  have hcases : ∀ {id x}, (e.pushIn parent).scopes[id]? = some x →
      (id = e.scopes.size ∧ x = .below (some parent)) ∨ e.scopes[id]? = some x := by
    intro id x hx
    rw [Environment.pushIn, Array.getElem?_push] at hx
    split at hx
    · rename_i heq
      exact .inl ⟨heq, (Option.some.inj hx).symm⟩
    · exact .inr hx
  refine ⟨?_, ?_, ?_, ?_⟩
  · simpa [Environment.pushIn, Stack.enter] using Nat.lt_succ_of_lt h.root_lt
  · intro id p x hx hp
    rcases hcases hx with ⟨rfl, rfl⟩ | hx
    · obtain rfl : parent = p := by simpa [Scope.below] using hp
      exact hparent
    · exact h.parent_lt hx hp
  · intro id x hx
    rcases hcases hx with ⟨rfl, rfl⟩ | hx
    · have hne : e.scopes.size ≠ e.stack.root := Nat.ne_of_gt h.root_lt
      simpa [Scope.below, Environment.pushIn, Stack.enter] using hne
    · exact h.parent_eq_none_iff hx
  · intro id x name b hx hb
    rcases hcases hx with ⟨rfl, rfl⟩ | hx
    · simp [Scope.below, Table.empty, Table.get?] at hb
    · exact h.home_eq hx hb

/-- A scope may be changed if its parent stays and its mixins are declared in it. -/
lemma modify (h : e.WellFormed) (id : ScopeId) {f : Scope → Scope}
    (hparent : ∀ x, (f x).parent = x.parent)
    (hhome : ∀ {x : Scope} {name : String} {b : MixinBinding}, e.scopes[id]? = some x →
      (f x).mixins.get? name = some b → b.home = id) :
    WellFormed { e with scopes := e.scopes.modify id f } := by
  have hcases : ∀ {i y}, (e.scopes.modify id f)[i]? = some y →
      (i = id ∧ ∃ x, e.scopes[id]? = some x ∧ y = f x) ∨ e.scopes[i]? = some y := by
    intro i y hy
    rw [Array.getElem?_modify] at hy
    split at hy
    · rename_i heq
      subst heq
      obtain ⟨x, hx, rfl⟩ := Option.map_eq_some_iff.mp hy
      exact .inl ⟨rfl, x, hx, rfl⟩
    · exact .inr hy
  refine ⟨?_, ?_, ?_, ?_⟩
  · simpa using h.root_lt
  · intro i p y hy hp
    rcases hcases hy with ⟨rfl, x, hx, rfl⟩ | hy
    · exact h.parent_lt hx (by rwa [← hparent])
    · exact h.parent_lt hy hp
  · intro i y hy
    rcases hcases hy with ⟨rfl, x, hx, rfl⟩ | hy
    · rw [hparent]
      exact h.parent_eq_none_iff hx
    · exact h.parent_eq_none_iff hy
  · intro i y name b hy hb
    rcases hcases hy with ⟨rfl, x, hx, rfl⟩ | hy
    · exact hhome hx hb
    · exact h.home_eq hy hb

/-- The scopes stay well formed when a variable is bound in the innermost one. -/
lemma define (h : e.WellFormed) (name : String) (v : Value) : (e.define name v).WellFormed :=
  h.modify _ (fun _ => rfl) fun hx hb => h.home_eq hx hb

/-- The scopes stay well formed when a variable is bound in the global one. -/
lemma defineGlobal (h : e.WellFormed) (name : String) (v : Value) :
    (e.defineGlobal name v).WellFormed :=
  h.modify _ (fun _ => rfl) fun hx hb => h.home_eq hx hb

/-- The scopes stay well formed when a mixin is declared in the innermost one. -/
lemma defineMixin (h : e.WellFormed) (m : Mixin) : (e.defineMixin m).WellFormed := by
  refine h.modify _ (fun _ => rfl) fun {x name b} hx hb => ?_
  have hget : (if name = m.name then some ⟨m, e.stack.current⟩ else x.mixins.get? name) =
      some b := by
    rw [← hb]
    exact (Table.get?_insert x.mixins m.name name _).symm
  by_cases hname : name = m.name
  · obtain rfl : ⟨m, e.stack.current⟩ = b := by simpa [hname] using hget
    rfl
  · exact h.home_eq hx (by simpa [hname] using hget)

/-! ### Chains -/

/-- A chain goes on with the chain of the parent, and ends in the scope that has none. -/
lemma chain_eq (h : e.WellFormed) {id : ScopeId} {x : Scope} (hx : e.scopes[id]? = some x) :
    e.scopes.chain id = id :: x.parent.elim [] e.scopes.chain := by
  rw [Scopes.chain]
  simp only [hx]
  cases hp : x.parent with
  | none => rfl
  | some p => simp [h.parent_lt hx hp]

/-- The parent of a scope exists. -/
lemma exists_parent (h : e.WellFormed) {id p : ScopeId} {x : Scope} (hx : e.scopes[id]? = some x)
    (hp : x.parent = some p) : ∃ y, e.scopes[p]? = some y := by
  have hid : id < e.scopes.size := (Array.getElem?_eq_some_iff.mp hx).1
  have hlt : p < e.scopes.size := Nat.lt_trans (h.parent_lt hx hp) hid
  exact ⟨_, Array.getElem?_eq_getElem hlt⟩

/-- The chain of the global scope holds only that scope. -/
lemma chain_root (h : e.WellFormed) : e.scopes.chain e.stack.root = [e.stack.root] := by
  obtain ⟨x, hx⟩ : ∃ x, e.scopes[e.stack.root]? = some x :=
    ⟨_, Array.getElem?_eq_getElem h.root_lt⟩
  have hparent : x.parent = none := (h.parent_eq_none_iff hx).mpr rfl
  rw [h.chain_eq hx, hparent]
  rfl

/-- A mixin that is found was declared in the scope of the chain where it is found. -/
lemma home_of_lookupMixin (h : e.WellFormed) {name : String} {b : MixinBinding}
    (hb : e.lookupMixin name = some b) :
    b.home ∈ e.scopes.chain e.stack.current ∧ b.home < e.scopes.size := by
  obtain ⟨id, hid, hat⟩ := List.exists_of_findSome?_eq_some hb
  obtain ⟨x, hx, hget⟩ := Option.bind_eq_some_iff.mp hat
  rw [h.home_eq hx hget]
  exact ⟨hid, (Array.getElem?_eq_some_iff.mp hx).1⟩

/-- A mixin that is found has a home that lives. -/
lemma isAlive_of_lookupMixin {s : Evaluation.State} (h : s.env.WellFormed) {name : String}
    {b : MixinBinding} (hb : s.env.lookupMixin name = some b) : s.isAlive b.home = true := by
  have hheld : s.env.stack.current ∈ s.holders :=
    List.mem_append_left _ (List.mem_of_head? s.env.stack.head?_toList)
  have hchain : (s.env.scopes.chain s.env.stack.current).contains b.home = true := by
    simpa using (h.home_of_lookupMixin hb).1
  exact List.any_eq_true.mpr ⟨_, hheld, hchain⟩

end WellFormed

end Environment

end StyleSheet

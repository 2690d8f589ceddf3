import Mathlib
import StyleSheet.Proofs.Scopes.Lists
import StyleSheet.Proofs.Scopes.WellFormed

/-!
# Several stacks over one graph of scopes

The stacks of a workspace share their scopes.  A new scope may be entered on any stack below any
scope that is saved, so the parents of the scopes on a stack need not stand on that stack, and no
single stack shows the shape of the graph.

All stacks nevertheless have the same global scope at the bottom, and the parents of every living
scope lead to it without passing a scope twice (`exists_root_run`).  So a look-up walks along a
finite path, ends at the first scope that binds the name, and finds at least what the global scope
binds.  That the global scope is never left is said of the stacks as plain lists, where only the
guard of leaving keeps it.

The step lemma is `WellFormed.apply`: an action keeps the workspace *well formed*, which says that
the scopes form a tree below the one global scope and that stacks and handles name scopes of it.
-/

namespace StyleSheet

/-! ### Paths -/

namespace Scopes

variable {scopes : Scopes} {id p : ScopeId} {l m : List ScopeId}

/-- The list holds a scope, its parent, the parent of that one, and so on, up to a scope that has
none. -/
inductive Path (scopes : Scopes) : ScopeId → List ScopeId → Prop
  | last {id : ScopeId} {x : Scope} (hx : scopes[id]? = some x) (hp : x.parent = none) :
    Path scopes id [id]
  | step {id p : ScopeId} {x : Scope} {l : List ScopeId} (hx : scopes[id]? = some x)
    (hp : x.parent = some p) (h : Path scopes p l) : Path scopes id (id :: l)

/-- Walking along the parents of a scope, `found` is the first place that holds something, and it
holds `a`. -/
def Nearest {α : Type} (scopes : Scopes) (at? : ScopeId → Option α) (id found : ScopeId) (a : α) :
    Prop :=
  ∃ before after, scopes.Path id (before ++ found :: after) ∧ (∀ k ∈ before, at? k = none) ∧
    at? found = some a

namespace Path

/-- The path of parents from a scope is unique. -/
lemma unique (h : scopes.Path id l) (k : scopes.Path id m) : l = m := by
  induction h generalizing m with
  | last hx hp =>
    cases k with
    | last => rfl
    | step hy hq =>
      obtain rfl := Option.some.inj (hx.symm.trans hy)
      rw [hp] at hq
      cases hq
  | step hx hp _ ih =>
    cases k with
    | last hy hq =>
      obtain rfl := Option.some.inj (hx.symm.trans hy)
      rw [hp] at hq
      cases hq
    | step hy hq k =>
      obtain rfl := Option.some.inj (hx.symm.trans hy)
      obtain rfl := Option.some.inj (hp.symm.trans hq)
      rw [ih k]

/-- A path holds the scope that it starts at. -/
lemma mem_self (h : scopes.Path id l) : id ∈ l := by
  cases h with
  | last => exact List.mem_cons_self
  | step => exact List.mem_cons_self

/-- A path goes on after each scope with the parent of it. -/
lemma mem_parent (h : scopes.Path id l) {k q : ScopeId} (hk : k ∈ l) {x : Scope}
    (hx : scopes[k]? = some x) (hq : x.parent = some q) : q ∈ l := by
  induction h with
  | last hy hp =>
    obtain rfl := List.mem_singleton.mp hk
    obtain rfl := Option.some.inj (hx.symm.trans hy)
    rw [hp] at hq
    cases hq
  | step hy hp h ih =>
    rcases List.mem_cons.mp hk with rfl | hk
    · obtain rfl := Option.some.inj (hx.symm.trans hy)
      obtain rfl := Option.some.inj (hp.symm.trans hq)
      exact List.mem_cons_of_mem _ h.mem_self
    · exact List.mem_cons_of_mem _ (ih hk)

end Path

end Scopes

namespace Environment.WellFormed

open Scopes

variable {e : Environment} {id : ScopeId} {l : List ScopeId}

/-- No scope on a path is younger than the first one. -/
lemma le_of_mem_path (h : e.WellFormed) (hl : e.scopes.Path id l) : ∀ k ∈ l, k ≤ id := by
  induction hl with
  | last => simp
  | step hx hp _ ih =>
    intro k hk
    have hlt := h.parent_lt hx hp
    rcases List.mem_cons.mp hk with rfl | hk
    · exact Nat.le_refl k
    · exact Nat.le_trans (ih k hk) (Nat.le_of_lt hlt)

/-- Parents are older, so no scope is passed twice. -/
lemma nodup_path (h : e.WellFormed) (hl : e.scopes.Path id l) : l.Nodup := by
  induction hl with
  | last => simp
  | step hx hp hl ih =>
    refine List.nodup_cons.mpr ⟨fun hmem => ?_, ih⟩
    exact absurd (h.le_of_mem_path hl _ hmem) (Nat.not_le_of_lt (h.parent_lt hx hp))

/-- Only the global scope has no parent, so a path ends there. -/
lemma getLast?_path (h : e.WellFormed) (hl : e.scopes.Path id l) :
    l.getLast? = some e.stack.root := by
  induction hl with
  | last hx hp => simp [(h.parent_eq_none_iff hx).mp hp]
  | step _ _ _ ih => simp [List.getLast?_cons, ih]

/-- The chain that look-ups walk along is the whole path of parents. -/
lemma path_chain (h : e.WellFormed) (hid : id < e.scopes.size) :
    e.scopes.Path id (e.scopes.chain id) := by
  induction id using Nat.strongRecOn with
  | _ id ih =>
    have hx : e.scopes[id]? = some e.scopes[id] := Array.getElem?_eq_getElem hid
    rw [h.chain_eq hx]
    cases hp : e.scopes[id].parent with
    | none => exact .last hx hp
    | some p =>
      have hlt : p < id := h.parent_lt hx hp
      exact .step hx hp (ih p hlt (Nat.lt_trans hlt hid))

/-- The first thing that a chain holds is held at the nearest place that holds anything. -/
lemma findSome?_chain_eq_some_iff (h : e.WellFormed) (hid : id < e.scopes.size) {α : Type}
    {at? : ScopeId → Option α} {a : α} :
    (e.scopes.chain id).findSome? at? = some a ↔ ∃ found, e.scopes.Nearest at? id found a := by
  have hpath := h.path_chain hid
  rw [List.findSome?_eq_some_iff]
  constructor
  · rintro ⟨before, found, after, hchain, hfound, hbefore⟩
    rw [hchain] at hpath
    exact ⟨found, before, after, hpath, hbefore, hfound⟩
  · rintro ⟨found, before, after, hsplit, hbefore, hfound⟩
    exact ⟨before, found, after, hpath.unique hsplit, hfound, hbefore⟩

/-- What the global scope binds is found from everywhere. -/
lemma isSome_lookup (h : e.WellFormed) (hcurrent : e.stack.current < e.scopes.size) {name : String}
    (hglobal : (e.lookupGlobal name).isSome) : (e.lookup name).isSome := by
  have hlast := h.getLast?_path (h.path_chain hcurrent)
  rw [Environment.lookup, Scopes.lookup, List.findSome?_isSome_iff]
  exact ⟨e.stack.root, List.mem_of_getLast? hlast, hglobal⟩

end Environment.WellFormed

/-! ### What an operation does to one environment -/

/-- The later environment is well formed over the same global scope, no scope is gone, and the stack
names scopes that exist. -/
structure Environment.Extends (e e' : Environment) : Prop where
  wellFormed : e'.WellFormed
  root_eq : e'.stack.root = e.stack.root
  size_le : e.scopes.size ≤ e'.scopes.size
  entered_lt : ∀ id ∈ e'.stack.toList, id < e'.scopes.size

namespace Environment.WellFormed

variable {e : Environment} (h : e.WellFormed) (hentered : ∀ id ∈ e.stack.toList, id < e.scopes.size)

include h hentered

/-- Entering a scope below one that exists extends the environment. -/
lemma extends_pushIn {parent : ScopeId} (hparent : parent < e.scopes.size) :
    e.Extends (e.pushIn parent) := by
  refine ⟨h.pushIn hparent, rfl, ?_, fun id hid => ?_⟩
  · simp [Environment.pushIn]
  · have hsize : (e.pushIn parent).scopes.size = e.scopes.size + 1 := Array.size_push _
    rw [hsize]
    rcases List.mem_cons.mp hid with rfl | hid
    · exact Nat.lt_succ_self _
    · exact Nat.lt_succ_of_lt (hentered id hid)

/-- Entering a scope below the innermost one extends the environment. -/
lemma extends_push : e.Extends e.push :=
  h.extends_pushIn hentered (hentered _ (List.mem_of_head? e.stack.head?_toList))

/-- Leaving a scope extends the environment: the scope itself stays in the graph. -/
lemma extends_pop : e.Extends e.pop := by
  refine ⟨h.withStack rfl, rfl, Nat.le_refl _, fun id hid => hentered id ?_⟩
  rcases List.mem_append.mp hid with hid | hid
  · exact List.mem_append_left _ (List.mem_of_mem_tail hid)
  · exact List.mem_append_right _ hid

omit h in
/-- A change inside one scope leaves the stack and the number of scopes alone. -/
lemma extends_modify (id : ScopeId) {f : Scope → Scope}
    (hwell : WellFormed { e with scopes := e.scopes.modify id f }) :
    e.Extends { e with scopes := e.scopes.modify id f } := by
  have hsize : (e.scopes.modify id f).size = e.scopes.size := Array.size_modify
  refine ⟨hwell, rfl, Nat.le_of_eq hsize.symm, fun k hk => ?_⟩
  rw [hsize]
  exact hentered k hk

end Environment.WellFormed

/-! ### Workspaces -/

namespace Workspace

variable {w : Workspace} {root : ScopeId}

/-- A scope lives while it stands on a stack or is saved, or while a scope lives whose parent it
is. -/
inductive Living (w : Workspace) : ScopeId → Prop
  | held {id : ScopeId} (h : id ∈ w.holders) : Living w id
  | parent {id p : ScopeId} {x : Scope} (h : Living w id) (hx : w.scopes[id]? = some x)
    (hp : x.parent = some p) : Living w p

/-- The scopes form a tree below one global scope, which is at the bottom of all stacks, and stacks
and handles name scopes of the tree. -/
structure WellFormed (w : Workspace) (root : ScopeId) : Prop where
  graph : Environment.WellFormed ⟨w.scopes, ⟨root, []⟩⟩
  root_eq : ∀ stack ∈ w.running, stack.root = root
  entered_lt : ∀ stack ∈ w.running, ∀ id ∈ stack.toList, id < w.scopes.size
  saved_lt : ∀ id ∈ w.saved.values, id < w.scopes.size

/-- The environment of a stack has the scopes of the workspace and one of its stacks. -/
lemma environment?_eq_some {i : Nat} {e : Environment} (h : w.environment? i = some e) :
    e.scopes = w.scopes ∧ e.stack ∈ w.running := by
  obtain ⟨stack, hstack, rfl⟩ := Option.map_eq_some_iff.mp h
  exact ⟨rfl, Array.mem_of_getElem? hstack⟩

/-- The first workspace is well formed. -/
lemma wellFormed_initial : initial.WellFormed 0 := by
  have honly : ∀ stack ∈ initial.running, stack = ⟨0, []⟩ := by
    intro stack hstack
    simpa [initial, Environment.initial] using hstack
  refine ⟨Environment.wellFormed_initial, ?_, ?_, ?_⟩
  · intro stack hstack
    rw [honly stack hstack]
  · intro stack hstack id hid
    rw [honly stack hstack] at hid
    obtain rfl := List.mem_singleton.mp hid
    decide
  · intro id hid
    cases hid

namespace WellFormed

/-- Each stack with the scopes is a well-formed environment. -/
lemma environment (h : w.WellFormed root) {i : Nat} {e : Environment}
    (he : w.environment? i = some e) :
    e.WellFormed ∧ ∀ id ∈ e.stack.toList, id < e.scopes.size := by
  obtain ⟨hscopes, hmem⟩ := environment?_eq_some he
  obtain ⟨scopes, stack⟩ := e
  obtain rfl : scopes = w.scopes := hscopes
  exact ⟨h.graph.withStack (h.root_eq stack hmem), h.entered_lt stack hmem⟩

/-- What is on a stack or saved exists. -/
lemma held_lt (h : w.WellFormed root) {id : ScopeId} (hid : id ∈ w.holders) :
    id < w.scopes.size := by
  rcases List.mem_append.mp hid with hid | hid
  · obtain ⟨stack, hstack, hid⟩ := List.mem_flatMap.mp hid
    exact h.entered_lt stack (Array.mem_toList_iff.mp hstack) id hid
  · exact h.saved_lt id hid

/-- What lives exists. -/
lemma living_lt (h : w.WellFormed root) {id : ScopeId} (hid : w.Living id) :
    id < w.scopes.size := by
  induction hid with
  | held hid => exact h.held_lt hid
  | parent _ hx hp ih => exact Nat.lt_trans (h.graph.parent_lt hx hp) ih

/-- All scopes on the path of a living scope live. -/
lemma living_of_mem_path {id : ScopeId} {l : List ScopeId} (hl : w.scopes.Path id l)
    (hid : w.Living id) : ∀ k ∈ l, w.Living k := by
  induction hl with
  | last =>
    intro k hk
    obtain rfl := List.mem_singleton.mp hk
    exact hid
  | step hx hp _ ih =>
    intro k hk
    rcases List.mem_cons.mp hk with rfl | hk
    · exact hid
    · exact ih (.parent hid hx hp) k hk

/-- The check for life, which looks at the chains of all scopes that are held, decides whether a
scope lives. -/
lemma isAlive_iff_living (h : w.WellFormed root) {id : ScopeId} :
    w.isAlive id = true ↔ w.Living id := by
  simp only [isAlive, Scopes.isAlive, List.any_eq_true, List.contains_iff_mem]
  constructor
  · rintro ⟨holder, hholder, hid⟩
    exact living_of_mem_path (h.graph.path_chain (h.held_lt hholder)) (.held hholder) id hid
  · intro hid
    induction hid with
    | held hid => exact ⟨_, hid, (h.graph.path_chain (h.held_lt hid)).mem_self⟩
    | parent _ hx hp ih =>
      obtain ⟨holder, hholder, hchain⟩ := ih
      exact ⟨holder, hholder,
        (h.graph.path_chain (h.held_lt hholder)).mem_parent hchain hx hp⟩

/-! ### Actions -/

/-- An operation on one of the stacks keeps the workspace well formed if it extends the environment
of that stack. -/
lemma update (h : w.WellFormed root) (i : Nat) {f : Environment → Environment}
    (hf : ∀ e : Environment, e.WellFormed → (∀ id ∈ e.stack.toList, id < e.scopes.size) →
      e.scopes = w.scopes → e.Extends (f e)) : (w.update i f).WellFormed root := by
  unfold Workspace.update
  split
  · exact h
  · rename_i e he
    obtain ⟨hscopes, hmem⟩ := environment?_eq_some he
    obtain ⟨hwell, hentered⟩ := h.environment he
    have hnew := hf e hwell hentered hscopes
    have hroot : (f e).stack.root = root := hnew.root_eq.trans (h.root_eq _ hmem)
    have hsize : w.scopes.size ≤ (f e).scopes.size := hscopes ▸ hnew.size_le
    refine ⟨hnew.wellFormed.withStack hroot.symm, ?_, ?_, ?_⟩
    · intro stack hstack
      rcases Array.mem_or_eq_of_mem_setIfInBounds hstack with hstack | rfl
      · exact h.root_eq stack hstack
      · exact hroot
    · intro stack hstack id hid
      rcases Array.mem_or_eq_of_mem_setIfInBounds hstack with hstack | rfl
      · exact Nat.lt_of_lt_of_le (h.entered_lt stack hstack id hid) hsize
      · exact hnew.entered_lt id hid
    · intro id hid
      exact Nat.lt_of_lt_of_le (h.saved_lt id hid) hsize

/-- Saving a scope that exists keeps the workspace well formed. -/
lemma save (h : w.WellFormed root) (handle : String) {id : ScopeId} (hid : id < w.scopes.size) :
    (w.save handle id).WellFormed root := by
  refine ⟨h.graph, h.root_eq, h.entered_lt, fun k hk => ?_⟩
  rcases Table.mem_values_insert hk with rfl | hk
  · exact hid
  · exact h.saved_lt k hk

/-- An action keeps the workspace well formed. -/
lemma apply (h : w.WellFormed root) (action : Action) : (w.apply action).WellFormed root := by
  -- an action that names no stack or no handle changes nothing, which is the second case of each
  -- split
  have hstack : ∀ {i : Nat} {stack : Stack}, w.running[i]? = some stack → stack ∈ w.running :=
    fun hi => Array.mem_of_getElem? hi
  cases action with
  | push i => exact h.update i fun e he hentered _ => he.extends_push hentered
  | pop i => exact h.update i fun e he hentered _ => he.extends_pop hentered
  | pushIn i handle =>
    dsimp only [Workspace.apply]
    split
    · rename_i id hid
      refine h.update i fun e he hentered hscopes => he.extends_pushIn hentered ?_
      rw [hscopes]
      exact h.saved_lt id (Table.mem_values_of_get? hid)
    · exact h
  | define i name value =>
    exact h.update i fun e he hentered _ =>
      Environment.WellFormed.extends_modify hentered _ (he.define name value)
  | defineGlobal i name value =>
    exact h.update i fun e he hentered _ =>
      Environment.WellFormed.extends_modify hentered _ (he.defineGlobal name value)
  | defineMixin i mixin =>
    exact h.update i fun e he hentered _ =>
      Environment.WellFormed.extends_modify hentered _ (he.defineMixin mixin)
  | child i =>
    dsimp only [Workspace.apply]
    split
    · rename_i stack hi
      refine ⟨h.graph, fun s hs => ?_, fun s hs id hid => ?_, h.saved_lt⟩
      · rcases Array.mem_push.mp hs with hs | rfl
        · exact h.root_eq s hs
        · exact h.root_eq stack (hstack hi)
      · rcases Array.mem_push.mp hs with hs | rfl
        · exact h.entered_lt s hs id hid
        · exact h.entered_lt stack (hstack hi) id (List.mem_append_right _ hid)
    · exact h
  | saveCurrent i handle =>
    dsimp only [Workspace.apply]
    split
    · rename_i stack hi
      exact h.save handle
        (h.entered_lt stack (hstack hi) _ (List.mem_of_head? stack.head?_toList))
    · exact h
  | saveGlobal i handle =>
    dsimp only [Workspace.apply]
    split
    · rename_i stack hi
      exact h.save handle (h.entered_lt stack (hstack hi) _ (by simp [Stack.toList]))
    · exact h
  | drop handle =>
    refine ⟨h.graph, h.root_eq, h.entered_lt, fun id hid => ?_⟩
    exact h.saved_lt id (Table.mem_values_erase hid)
  | defineIn handle name value =>
    dsimp only [Workspace.apply]
    split
    · rename_i id hid
      have hsize : (w.scopes.define id name value).size = w.scopes.size := Array.size_modify
      have hgraph : Environment.WellFormed ⟨w.scopes.define id name value, ⟨root, []⟩⟩ :=
        h.graph.modify id (fun _ => rfl) fun hx hb => h.graph.home_eq hx hb
      refine ⟨hgraph, h.root_eq, ?_, ?_⟩
      · simpa only [hsize] using h.entered_lt
      · simpa only [hsize] using h.saved_lt
    · exact h
  | keepMixin i name binding =>
    dsimp only [Workspace.apply]
    split
    · exact ⟨h.graph, h.root_eq, h.entered_lt, h.saved_lt⟩
    · exact h
  | saveHome binding handle =>
    dsimp only [Workspace.apply]
    split
    · split
      · rename_i halive
        exact h.save handle (h.living_lt (h.isAlive_iff_living.mp halive))
      · exact h
    · exact h

/-- Actions keep the workspace well formed. -/
lemma run (h : w.WellFormed root) (actions : List Action) : (w.run actions).WellFormed root := by
  unfold Workspace.run
  induction actions generalizing w with
  | nil => exact h
  | cons action rest ih => exact ih (h.apply action)

end WellFormed

/-- After any actions there is one global scope at the bottom of all stacks, and following the
parents of a living scope gives a finite list without repetition that ends there.  On each stack a
variable has the value that the nearest scope of that list binds it to, and it has one whenever the
global scope binds it.  The same actions on plain lists give the lists of these stacks, and no list
is ever empty. -/
theorem exists_root_run (actions : List Action) (w : Workspace) (hw : initial.run actions = w) :
    ∃ root, ListWorkspace.initial.run actions = w.toLists ∧
      (∀ s ∈ (ListWorkspace.initial.run actions).running, s.entered ≠ [] ∧
        s.entered.getLast? = some root ∧ s.entered.head? = some s.current) ∧
      (∀ stack ∈ w.running, stack.toList.getLast? = some root) ∧
      (∀ id, w.Living id → w.scopes.Path id (w.scopes.chain id) ∧ (w.scopes.chain id).Nodup ∧
        (w.scopes.chain id).getLast? = some root) ∧
      ∀ i e, w.environment? i = some e → ∀ name,
        (∀ v, e.lookup name = some v ↔
          ∃ found, e.scopes.Nearest (e.scopes.valueAt? name) e.stack.current found v) ∧
        ((e.lookupGlobal name).isSome → (e.lookup name).isSome) := by
  have h : w.WellFormed 0 := hw ▸ wellFormed_initial.run actions
  refine ⟨0, ?_, fun s hs => ?_, fun stack hstack => ?_, fun id hid => ?_, fun i e he name => ?_⟩
  · rw [← hw, toLists_run, toLists_initial]
  · obtain ⟨stack, hstack, rfl⟩ := ListWorkspace.exists_stack_of_mem_run hs
    have hroot : stack.root = 0 := h.root_eq stack (hw ▸ hstack)
    have hlast := stack.getLast?_toListStack
    refine ⟨?_, hroot ▸ hlast, ?_⟩
    · exact List.getLast?_isSome.mp (by simp [hlast])
    · rw [stack.current_toListStack]
      exact stack.head?_toList
  · rw [← h.root_eq stack hstack]
    simp [Stack.toList]
  · have hpath := h.graph.path_chain (h.living_lt hid)
    exact ⟨hpath, h.graph.nodup_path hpath, h.graph.getLast?_path hpath⟩
  · obtain ⟨hwell, hentered⟩ := h.environment he
    have hcurrent := hentered _ (List.mem_of_head? e.stack.head?_toList)
    exact ⟨fun v => hwell.findSome?_chain_eq_some_iff hcurrent, hwell.isSome_lookup hcurrent⟩

/-- A scope that binds `$x` is saved and left, the global scope is asked to be left too, and on a
second stack a scope is entered below the saved one, above a scope that is no ancestor of it. -/
def crossingActions : List Action :=
  [.push 0, .define 0 "$x" (.text "saved"), .saveCurrent 0 "s", .pop 0, .pop 0, .child 0, .push 1,
    .define 1 "$x" (.text "passed"), .pushIn 1 "s", .defineGlobal 0 "$g" (.text "global")]

/-- The second stack after these actions. -/
def crossedEnvironment : Environment := ⟨(initial.run crossingActions).scopes, ⟨0, [3, 2]⟩⟩

/-- From the innermost scope of the second stack the parents lead through the saved scope, and not
through the scope below it on the stack.  The list of the first stack still holds the global
scope. -/
theorem exists_root_run_crossingActions :
    (initial.run crossingActions).environment? 1 = some crossedEnvironment ∧
      (initial.run crossingActions).Living 3 ∧ ∃ root,
      (ListWorkspace.initial.run crossingActions).running = #[⟨0, [0]⟩, ⟨0, [3, 2, 0]⟩] ∧
      [3, 2, 0].getLast? = some root ∧
      crossedEnvironment.stack.toList.getLast? = some root ∧
      crossedEnvironment.scopes.Path 3 [3, 1, 0] ∧ [3, 1, 0].getLast? = some root ∧
      (∃ found, crossedEnvironment.scopes.Nearest (crossedEnvironment.scopes.valueAt? "$x") 3 found
        (.text "saved")) ∧
      (crossedEnvironment.lookup "$g").isSome := by
  have he : (initial.run crossingActions).environment? 1 = some crossedEnvironment := rfl
  have hheld : (initial.run crossingActions).Living 3 := .held (by decide)
  have hchain : (initial.run crossingActions).scopes.chain 3 = [3, 1, 0] := by cbv
  have hx : crossedEnvironment.lookup "$x" = some (.text "saved") := by cbv
  have hg : (crossedEnvironment.lookupGlobal "$g").isSome := by cbv
  have hlists : (ListWorkspace.initial.run crossingActions).running =
    #[⟨0, [0]⟩, ⟨0, [3, 2, 0]⟩] := rfl
  obtain ⟨root, -, hlist, hbottom, hliving, hlookup⟩ := exists_root_run crossingActions _ rfl
  obtain ⟨hpath, -, hlast⟩ := hliving 3 hheld
  rw [hchain] at hpath hlast
  refine ⟨he, hheld, root, hlists, ?_, hbottom _ (environment?_eq_some he).2, hpath, hlast, ?_, ?_⟩
  · exact (hlist ⟨0, [3, 2, 0]⟩ (by simp [hlists])).2.1
  · exact ((hlookup 1 _ he "$x").1 _).mp hx
  · exact (hlookup 1 _ he "$g").2 hg

end Workspace

end StyleSheet

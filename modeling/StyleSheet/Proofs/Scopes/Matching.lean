import Mathlib.Data.List.Forall2
import Mathlib.Logic.Relator
import Mathlib.Order.Basic
import StyleSheet.Proofs.Scopes.WellFormed

/-!
# Scopes that match

Two runs that do the same make scopes at different places of their two arrays of scopes.  So two
environments are compared along a relation `R` between places: related scopes bind the same things
and have related parents (`Scopes.Matched`), the global scopes are related
(`Environment.Matches`), and so are the innermost ones (`Environment.Related`).

In related environments everything that is looked up is the same, and a mixin that is found was
declared in related scopes.  Environments stay related when related scopes are changed in the same
way or when new scopes are entered below related ones.
-/

namespace StyleSheet

/-- Two scopes bind the same variables to the same values and the same names to the same mixins. -/
structure Scope.SameBindings (x y : Scope) : Prop where
  values : ∀ name, x.values.get? name = y.values.get? name
  mixins : ∀ name, (x.mixins.get? name).map MixinBinding.mixin =
    (y.mixins.get? name).map MixinBinding.mixin

namespace Scope.SameBindings

variable {x y : Scope}

/-- Two new scopes bind the same, whatever their parents are. -/
lemma below (p q : Option ScopeId) : (Scope.below p).SameBindings (.below q) :=
  ⟨fun _ => rfl, fun _ => rfl⟩

/-- Scopes bind the same after one value is bound in both. -/
lemma define (h : x.SameBindings y) (name : String) (v : Value) :
    (x.define name v).SameBindings (y.define name v) := by
  refine ⟨fun other => ?_, h.mixins⟩
  simp [Scope.define, Table.get?_insert, h.values other]

/-- Scopes bind the same after one mixin is declared in both, wherever they are. -/
lemma defineMixin (h : x.SameBindings y) (m : Mixin) (i j : ScopeId) :
    (x.defineMixin ⟨m, i⟩).SameBindings (y.defineMixin ⟨m, j⟩) := by
  refine ⟨h.values, fun other => ?_⟩
  by_cases hother : other = m.name
  · simp [Scope.defineMixin, Table.get?_insert, hother]
  · simp [Scope.defineMixin, Table.get?_insert, hother, h.mixins other]

end Scope.SameBindings

namespace Scopes

/-- The scopes at two places exist and bind the same. -/
def AgreeAt (a b : Scopes) (i j : ScopeId) : Prop :=
  ∃ x y, a[i]? = some x ∧ b[j]? = some y ∧ x.SameBindings y

/-- The relation with one more pair of places. -/
def adjoin (R : ScopeId → ScopeId → Prop) (i j : ScopeId) (i' j' : ScopeId) : Prop :=
  R i' j' ∨ (i' = i ∧ j' = j)

/-- One more pair of places makes the relation wider. -/
lemma le_adjoin (R : ScopeId → ScopeId → Prop) (i j : ScopeId) : R ≤ adjoin R i j :=
  fun _ _ h => .inl h

/-- No place is related to two places, and related scopes bind the same and have related parents. -/
structure Matched (R : ScopeId → ScopeId → Prop) (a b : Scopes) : Prop where
  unique : Relator.BiUnique R
  agree : ∀ {i j}, R i j → ∃ x y, a[i]? = some x ∧ b[j]? = some y ∧ x.SameBindings y ∧
    Option.Rel R x.parent y.parent

namespace Matched

variable {R : ScopeId → ScopeId → Prop} {a b : Scopes} {i j : ScopeId}

/-- Related places hold scopes that bind the same. -/
lemma agreeAt (h : Matched R a b) (hij : R i j) : a.AgreeAt b i j := by
  obtain ⟨x, y, hx, hy, hxy, -⟩ := h.agree hij
  exact ⟨x, y, hx, hy, hxy⟩

/-- Related places exist. -/
lemma lt_size (h : Matched R a b) (hij : R i j) : i < a.size ∧ j < b.size := by
  obtain ⟨x, y, hx, hy, -, -⟩ := h.agree hij
  exact ⟨(Array.getElem?_eq_some_iff.mp hx).1, (Array.getElem?_eq_some_iff.mp hy).1⟩

/-- Two places that are not related yet can be related if their scopes match. -/
lemma adjoin (h : Matched R a b) (hi : ∀ j', ¬ R i j') (hj : ∀ i', ¬ R i' j) {x y : Scope}
    (hx : a[i]? = some x) (hy : b[j]? = some y) (hxy : x.SameBindings y)
    (hparent : Option.Rel R x.parent y.parent) : Matched (adjoin R i j) a b := by
  have hwider : ∀ {p q}, Option.Rel R p q → Option.Rel (Scopes.adjoin R i j) p q := by
    rintro _ _ (hpq | _)
    · exact .some (.inl hpq)
    · exact .none
  refine ⟨⟨?_, ?_⟩, ?_⟩
  · rintro k l m (hk | ⟨rfl, rfl⟩) (hl | ⟨rfl, hm⟩)
    · exact h.unique.1 hk hl
    · exact absurd (hm ▸ hk) (hj k)
    · exact absurd hl (hj l)
    · rfl
  · rintro k l m (hl | ⟨rfl, rfl⟩) (hm | ⟨hk, rfl⟩)
    · exact h.unique.2 hl hm
    · exact absurd (hk ▸ hl) (hi l)
    · exact absurd hm (hi m)
    · rfl
  · rintro k l (hkl | ⟨rfl, rfl⟩)
    · obtain ⟨u, v, hu, hv, huv, hp⟩ := h.agree hkl
      exact ⟨u, v, hu, hv, huv, hwider hp⟩
    · exact ⟨x, y, hx, hy, hxy, hwider hparent⟩

/-- New scopes below related parents can be related. -/
lemma push (h : Matched R a b) (hij : R i j) :
    Matched (Scopes.adjoin R a.size b.size) (a.push (.below (some i)))
      (b.push (.below (some j))) := by
  have hpushed : Matched R (a.push (.below (some i))) (b.push (.below (some j))) := by
    refine ⟨h.unique, fun {k l} hkl => ?_⟩
    obtain ⟨x, y, hx, hy, hxy, hp⟩ := h.agree hkl
    obtain ⟨hk, hl⟩ := h.lt_size hkl
    refine ⟨x, y, ?_, ?_, hxy, hp⟩
    · rw [Array.getElem?_push, if_neg (Nat.ne_of_lt hk), hx]
    · rw [Array.getElem?_push, if_neg (Nat.ne_of_lt hl), hy]
  refine hpushed.adjoin (fun l hl => ?_) (fun k hk => ?_) Array.getElem?_push_size
    Array.getElem?_push_size (.below _ _) (.some hij)
  · exact absurd (h.lt_size hl).1 (Nat.lt_irrefl _)
  · exact absurd (h.lt_size hk).2 (Nat.lt_irrefl _)

/-- Related scopes may be changed in the same way. -/
lemma modify (h : Matched R a b) (hij : R i j) {f g : Scope → Scope}
    (hfg : ∀ x y, x.SameBindings y → (f x).SameBindings (g y)) (hf : ∀ x, (f x).parent = x.parent)
    (hg : ∀ y, (g y).parent = y.parent) : Matched R (a.modify i f) (b.modify j g) := by
  refine ⟨h.unique, fun {k l} hkl => ?_⟩
  obtain ⟨x, y, hx, hy, hxy, hp⟩ := h.agree hkl
  by_cases hk : i = k
  · subst hk
    obtain rfl : j = l := h.unique.2 hij hkl
    refine ⟨f x, g y, ?_, ?_, hfg x y hxy, ?_⟩
    · simp [Array.getElem?_modify, hx]
    · simp [Array.getElem?_modify, hy]
    · rwa [hf, hg]
  · have hl : j ≠ l := fun hl => hk (h.unique.1 hij (hl ▸ hkl))
    refine ⟨x, y, ?_, ?_, hxy, hp⟩
    · simp [Array.getElem?_modify, hk, hx]
    · simp [Array.getElem?_modify, hl, hy]

end Matched

end Scopes

namespace Environment

open Scopes

variable {R : ScopeId → ScopeId → Prop} {e f : Environment}

/-- The chains of related scopes are related scope by scope. -/
lemma forall₂_chain (he : e.WellFormed) (hf : f.WellFormed) (h : Matched R e.scopes f.scopes)
    {i j : ScopeId} (hij : R i j) : List.Forall₂ R (e.scopes.chain i) (f.scopes.chain j) := by
  induction i using Nat.strongRecOn generalizing j with
  | _ i ih =>
    obtain ⟨x, y, hx, hy, -, hp⟩ := h.agree hij
    rw [he.chain_eq hx, hf.chain_eq hy]
    refine .cons hij ?_
    rcases hxp : x.parent with _ | p
    all_goals
      rcases hyp : y.parent with _ | q
      all_goals rw [hxp, hyp] at hp
    · exact .nil
    · cases hp
    · cases hp
    · cases hp with
      | some hpq => exact ih p (he.parent_lt hx hxp) hpq

/-- Scopes that bind the same all along two chains can be matched, down to the global ones. -/
lemma exists_matched (he : e.WellFormed) (hf : f.WellFormed) {i j : ScopeId}
    (h : List.Forall₂ (e.scopes.AgreeAt f.scopes) (e.scopes.chain i) (f.scopes.chain j))
    (hi : i < e.scopes.size) (hj : j < f.scopes.size) :
    ∃ R, Matched R e.scopes f.scopes ∧ R i j ∧ R e.stack.root f.stack.root ∧
      ∀ k l, R k l → k ≤ i ∧ l ≤ j := by
  induction i using Nat.strongRecOn generalizing j with
  | _ i ih =>
    have hei : e.scopes[i]? = some e.scopes[i] := Array.getElem?_eq_getElem hi
    have hfj : f.scopes[j]? = some f.scopes[j] := Array.getElem?_eq_getElem hj
    rw [he.chain_eq hei, hf.chain_eq hfj] at h
    obtain ⟨⟨x, y, hx, hy, hxy⟩, hrest⟩ := List.forall₂_cons.mp h
    obtain rfl : e.scopes[i] = x := Option.some.inj (hei.symm.trans hx)
    obtain rfl : f.scopes[j] = y := Option.some.inj (hfj.symm.trans hy)
    rcases hxp : e.scopes[i].parent with _ | p
    all_goals
      rcases hyp : f.scopes[j].parent with _ | q
      all_goals rw [hxp, hyp] at hrest
    · -- both chains end here, in the global scopes
      have hnone : Matched (fun _ _ => False) e.scopes f.scopes := ⟨⟨nofun, nofun⟩, nofun⟩
      obtain rfl : i = e.stack.root := (he.parent_eq_none_iff hx).mp hxp
      obtain rfl : j = f.stack.root := (hf.parent_eq_none_iff hy).mp hyp
      refine ⟨Scopes.adjoin (fun _ _ => False) e.stack.root f.stack.root,
        hnone.adjoin nofun nofun hx hy hxy ?_, .inr ⟨rfl, rfl⟩, .inr ⟨rfl, rfl⟩, ?_⟩
      · rw [hxp, hyp]
        exact .none
      · rintro k l (hkl | ⟨rfl, rfl⟩)
        · exact hkl.elim
        · exact ⟨Nat.le_refl _, Nat.le_refl _⟩
    · obtain ⟨z, hz⟩ := hf.exists_parent hy hyp
      rw [Option.elim_some, hf.chain_eq hz] at hrest
      cases hrest
    · obtain ⟨z, hz⟩ := he.exists_parent hx hxp
      rw [Option.elim_some, he.chain_eq hz] at hrest
      cases hrest
    · -- both chains go on with parents; what is matched so far is older than the two scopes, so the
      -- new pair does not clash with it
      have hpi : p < i := he.parent_lt hx hxp
      have hqj : q < j := hf.parent_lt hy hyp
      obtain ⟨R, hR, hpq, hroot, hle⟩ := ih p hpi hrest (Nat.lt_trans hpi hi) (Nat.lt_trans hqj hj)
      refine ⟨Scopes.adjoin R i j, hR.adjoin ?_ ?_ hx hy hxy ?_, .inr ⟨rfl, rfl⟩, .inl hroot, ?_⟩
      · exact fun l hil => absurd (hle i l hil).1 (Nat.not_le_of_lt hpi)
      · exact fun k hkj => absurd (hle k j hkj).2 (Nat.not_le_of_lt hqj)
      · rw [hxp, hyp]
        exact .some hpq
      · rintro k l (hkl | ⟨rfl, rfl⟩)
        · have hkp := hle k l hkl
          exact ⟨Nat.le_of_lt (Nat.lt_of_le_of_lt hkp.1 hpi),
            Nat.le_of_lt (Nat.lt_of_le_of_lt hkp.2 hqj)⟩
        · exact ⟨Nat.le_refl _, Nat.le_refl _⟩

/-! ### Environments that match -/

/-- The scopes of two environments match, the global ones among them. -/
structure Matches (R : ScopeId → ScopeId → Prop) (e f : Environment) : Prop where
  left : e.WellFormed
  right : f.WellFormed
  scopes : Matched R e.scopes f.scopes
  root : R e.stack.root f.stack.root

/-- The innermost scopes match as well. -/
structure Related (R : ScopeId → ScopeId → Prop) (e f : Environment) : Prop
    extends Matches R e f where
  current : R e.stack.current f.stack.current

/-- Matching environments still match with other stacks above the same global scopes. -/
lemma Matches.withStacks (h : Matches R e f) {p q : Stack} (hp : p.root = e.stack.root)
    (hq : q.root = f.stack.root) : Matches R { e with stack := p } { f with stack := q } := by
  refine ⟨h.left.withStack hp, h.right.withStack hq, h.scopes, ?_⟩
  rw [hp, hq]
  exact h.root

/-- New scopes below matching ones match. -/
lemma Matches.pushIn (h : Matches R e f) {i j : ScopeId} (hij : R i j) :
    Related (adjoin R e.scopes.size f.scopes.size) (e.pushIn i) (f.pushIn j) where
  left := h.left.pushIn (h.scopes.lt_size hij).1
  right := h.right.pushIn (h.scopes.lt_size hij).2
  scopes := h.scopes.push hij
  root := .inl h.root
  current := .inr ⟨rfl, rfl⟩

/-- A well-formed environment is related to itself. -/
lemma WellFormed.related_self (h : e.WellFormed) (hcurrent : e.stack.current < e.scopes.size) :
    Related (fun i j => i = j ∧ i < e.scopes.size) e e := by
  refine ⟨⟨h, h, ⟨⟨?_, ?_⟩, ?_⟩, rfl, h.root_lt⟩, rfl, hcurrent⟩
  · rintro i j k ⟨rfl, -⟩ ⟨rfl, -⟩
    rfl
  · rintro i j k ⟨rfl, -⟩ ⟨rfl, -⟩
    rfl
  · rintro i _ ⟨rfl, hi⟩
    have hx : e.scopes[i]? = some e.scopes[i] := Array.getElem?_eq_getElem hi
    refine ⟨_, _, hx, hx, ⟨fun _ => rfl, fun _ => rfl⟩, ?_⟩
    cases hp : e.scopes[i].parent with
    | none => exact .none
    | some p => exact .some ⟨rfl, Nat.lt_trans (h.parent_lt hx hp) hi⟩

namespace Related

/-- Environments stay related when a variable is bound in their innermost scopes. -/
lemma define (h : Related R e f) (name : String) (v : Value) :
    Related R (e.define name v) (f.define name v) where
  left := h.left.define name v
  right := h.right.define name v
  scopes := h.scopes.modify h.current (fun _ _ hxy => hxy.define name v) (fun _ => rfl)
    fun _ => rfl
  root := h.root
  current := h.current

/-- Environments stay related when a variable is bound in their global scopes. -/
lemma defineGlobal (h : Related R e f) (name : String) (v : Value) :
    Related R (e.defineGlobal name v) (f.defineGlobal name v) where
  left := h.left.defineGlobal name v
  right := h.right.defineGlobal name v
  scopes := h.scopes.modify h.root (fun _ _ hxy => hxy.define name v) (fun _ => rfl) fun _ => rfl
  root := h.root
  current := h.current

/-- Environments stay related when a mixin is declared in their innermost scopes. -/
lemma defineMixin (h : Related R e f) (m : Mixin) :
    Related R (e.defineMixin m) (f.defineMixin m) where
  left := h.left.defineMixin m
  right := h.right.defineMixin m
  scopes := h.scopes.modify h.current (fun _ _ hxy => hxy.defineMixin m _ _) (fun _ => rfl)
    fun _ => rfl
  root := h.root
  current := h.current

/-- Environments stay related when parameters are bound in their innermost scopes. -/
lemma bindParams (h : Related R e f) (params : List String) (values : List Value) :
    Related R (Evaluation.bindParams params values e) (Evaluation.bindParams params values f) := by
  unfold Evaluation.bindParams
  induction params.zip values generalizing e f with
  | nil => exact h
  | cons p rest ih => exact ih (h.define p.1 p.2)

/-! ### Looking up -/

/-- What is found first along related lists is related. -/
lemma rel_findSome? {α β : Type} {S : α → β → Prop} {l m : List ScopeId} {g : ScopeId → Option α}
    {k : ScopeId → Option β} (h : List.Forall₂ R l m)
    (hgk : ∀ i j, R i j → Option.Rel S (g i) (k j)) :
    Option.Rel S (l.findSome? g) (m.findSome? k) := by
  induction h with
  | nil => exact .none
  | @cons i j l m hij _ ih =>
    have hhead := hgk i j hij
    rw [List.findSome?_cons, List.findSome?_cons]
    rcases hg : g i with _ | a
    all_goals
      rcases hk : k j with _ | b
      all_goals rw [hg, hk] at hhead
    · exact ih
    · cases hhead
    · cases hhead
    · exact hhead

/-- Options that hold equal values are equal. -/
lemma rel_eq_iff {α : Type} {x y : Option α} : Option.Rel Eq x y ↔ x = y := by
  constructor
  · rintro (rfl | _)
    · rfl
    · rfl
  · rintro rfl
    cases x with
    | none => exact .none
    | some a => exact .some rfl

/-- Related scopes bind a variable to one value. -/
lemma valueAt?_eq (h : Related R e f) {i j : ScopeId} (hij : R i j) (name : String) :
    e.scopes.valueAt? name i = f.scopes.valueAt? name j := by
  obtain ⟨x, y, hx, hy, hxy, -⟩ := h.scopes.agree hij
  simp only [Scopes.valueAt?, hx, hy, Option.bind_some, hxy.values name]

/-- Look-ups from related environments find the same values. -/
lemma lookup_eq (h : Related R e f) : e.lookup = f.lookup := by
  funext name
  have hchains := forall₂_chain h.left h.right h.scopes h.current
  exact rel_eq_iff.mp (rel_findSome? hchains fun i j hij => rel_eq_iff.mpr (h.valueAt?_eq hij name))

/-- Look-ups in the global scopes of related environments find the same values. -/
lemma lookupGlobal_eq (h : Related R e f) : e.lookupGlobal = f.lookupGlobal := by
  funext name
  exact h.valueAt?_eq h.root name

/-- A name is found in both environments or in none, and then it stands for the same mixin, declared
in matching scopes. -/
lemma rel_lookupMixin (h : Related R e f) (name : String) :
    Option.Rel (fun b c : MixinBinding => b.mixin = c.mixin ∧ R b.home c.home)
      (e.lookupMixin name) (f.lookupMixin name) := by
  have hchains := forall₂_chain h.left h.right h.scopes h.current
  refine rel_findSome? hchains fun i j hij => ?_
  obtain ⟨x, y, hx, hy, hxy, -⟩ := h.scopes.agree hij
  have hmixin := hxy.mixins name
  simp only [Scopes.mixinAt?, hx, hy, Option.bind_some]
  rcases hb : x.mixins.get? name with _ | b
  all_goals
    rcases hc : y.mixins.get? name with _ | c
    all_goals rw [hb, hc] at hmixin
  · exact .none
  · cases hmixin
  · cases hmixin
  · refine .some ⟨Option.some.inj hmixin, ?_⟩
    rw [h.left.home_eq hx hb, h.right.home_eq hy hc]
    exact hij

end Related

end Environment

end StyleSheet

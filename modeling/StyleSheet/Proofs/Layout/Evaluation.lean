import StyleSheet.Proofs.Congruence
import StyleSheet.Proofs.Spans.Mapping

/-!
# Evaluation without spans

Statements carry spans, the bodies of mixins in the scopes carry them too, and errors report them.
None of them has any influence on what is evaluated: statements that are the same up to spans, run
from states that are the same up to spans, end in the same way up to the spans of the error
(`Evaluation.alikeOnBodies_runUpTo`).

Being alike is symmetric and transitive, so it is enough to compare each statement with itself
without its spans.  The run of a statement without its spans is the run of the statement with
constructs that look away from spans (`Meaning.run_mapSpans`), and these are compared one by one.
-/

namespace StyleSheet

/-! ### Scopes without spans -/

/-- The table with something else under each name. -/
def Table.map {α β : Type} (f : α → β) (t : Table α) : Table β :=
  ⟨t.entries.map fun e => (e.1, f e.2)⟩

/-- What is found in a mapped table is the image of what is found in the table. -/
lemma Table.get?_map {α β : Type} (f : α → β) (t : Table α) (name : String) :
    (t.map f).get? name = (t.get? name).map f := by
  rw [get?, get?, map]
  induction t.entries with
  | nil => rfl
  | cons e rest ih =>
    obtain ⟨key, a⟩ := e
    simp only [List.map_cons, List.lookup_cons, ih]
    split <;> rfl

/-- Mapping a table after an insertion inserts the image. -/
lemma Table.map_insert {α β : Type} (f : α → β) (t : Table α) (name : String) (a : α) :
    (t.insert name a).map f = (t.map f).insert name (f a) := by
  simp only [map, insert, List.map_cons, List.filter_map, Function.comp_def]

/-- Forgetting the spans of statements twice is forgetting them once. -/
lemma Stmt.forget_comp_forget :
    mapSpans Span.forget ∘ mapSpans Span.forget = mapSpans Span.forget := by
  funext s
  exact s.mapSpans_mapSpans

def Mixin.forget (m : Mixin) : Mixin := { m with body := m.body.map (Stmt.mapSpans Span.forget) }

def MixinBinding.forget (b : MixinBinding) : MixinBinding := { b with mixin := b.mixin.forget }

/-- Bindings that are the same up to spans have the same parameters and the same home. -/
lemma MixinBinding.eq_of_forget_eq {b b' : MixinBinding} (h : b.forget = b'.forget) :
    b.home = b'.home ∧ b.mixin.params = b'.mixin.params ∧
      b.mixin.body.map (Stmt.mapSpans Span.forget) =
        b'.mixin.body.map (Stmt.mapSpans Span.forget) := by
  unfold forget Mixin.forget at h
  injection h with hmixin hhome
  injection hmixin with hname hparams hbody
  exact ⟨hhome, hparams, hbody⟩

def Scope.forget (s : Scope) : Scope := { s with mixins := s.mixins.map MixinBinding.forget }

def Environment.forget (e : Environment) : Environment :=
  { e with scopes := e.scopes.map Scope.forget }

namespace Scopes

variable (scopes : Scopes)

/-- A change inside one scope carries over to the scopes without spans. -/
lemma map_modify {f f' : Scope → Scope} (h : ∀ s, (f s).forget = f' s.forget) (id : ScopeId) :
    (scopes.modify id f).map Scope.forget = (scopes.map Scope.forget).modify id f' := by
  apply Array.ext_getElem?
  intro i
  by_cases hi : id = i
  · simp [Array.getElem?_modify, hi, Function.comp_def, h]
  · simp [Array.getElem?_modify, hi]

/-- Chains do not depend on spans. -/
lemma chain_map_forget (id : ScopeId) :
    Scopes.chain (scopes.map Scope.forget) id = scopes.chain id := by
  induction id using Nat.strongRecOn with
  | ind id ih =>
    unfold chain
    rw [Array.getElem?_map]
    rcases hs : scopes[id]? with _ | s
    · rfl
    · simp only [Option.map_some]
      rcases hparent : s.parent with _ | parent
      · simp [Scope.forget, hparent]
      · by_cases hlt : parent < id
        · simp [Scope.forget, hparent, hlt, ih parent hlt]
        · simp [Scope.forget, hparent, hlt]

/-- Which scopes live does not depend on spans. -/
lemma isAlive_map_forget (holders : List ScopeId) (id : ScopeId) :
    Scopes.isAlive (scopes.map Scope.forget) holders id = scopes.isAlive holders id := by
  simp only [isAlive, chain_map_forget]

/-- The values of variables have no spans. -/
lemma valueAt?_map_forget (name : String) :
    Scopes.valueAt? (scopes.map Scope.forget) name = scopes.valueAt? name := by
  funext id
  rw [valueAt?, valueAt?, Array.getElem?_map]
  cases scopes[id]? <;> rfl

/-- The mixins of scopes without spans are those of the scopes, without spans. -/
lemma mixinAt?_map_forget (name : String) :
    Scopes.mixinAt? (scopes.map Scope.forget) name =
      Option.map MixinBinding.forget ∘ scopes.mixinAt? name := by
  funext id
  rw [Function.comp_apply, mixinAt?, mixinAt?, Array.getElem?_map]
  rcases scopes[id]? with _ | s
  · rfl
  · exact s.mixins.get?_map MixinBinding.forget name

end Scopes

namespace Environment

variable (e : Environment)

/-- Looking up a variable does not depend on spans. -/
lemma lookup_forget (name : String) : e.forget.lookup name = e.lookup name := by
  simp only [lookup, forget, Scopes.lookup, Scopes.chain_map_forget, Scopes.valueAt?_map_forget]

/-- Looking up a variable in the global scope does not depend on spans. -/
lemma lookupGlobal_forget (name : String) : e.forget.lookupGlobal name = e.lookupGlobal name := by
  simp only [lookupGlobal, forget, Scopes.valueAt?_map_forget]

/-- Looking up a mixin finds the same one without spans. -/
lemma lookupMixin_forget (name : String) :
    e.forget.lookupMixin name = (e.lookupMixin name).map MixinBinding.forget := by
  simp only [lookupMixin, forget, Scopes.lookupMixin, Scopes.chain_map_forget,
    Scopes.mixinAt?_map_forget, List.map_findSome?]

/-- A change of one scope, with and without spans. -/
lemma modify_forget {f f' : Scope → Scope} (h : ∀ s, (f s).forget = f' s.forget) (id : ScopeId) :
    ({ e with scopes := e.scopes.modify id f } : Environment).forget =
      { e.forget with scopes := e.forget.scopes.modify id f' } :=
  congrArg (Environment.mk · e.stack) (Scopes.map_modify e.scopes h id)

/-- Binding a variable commutes with forgetting spans. -/
lemma define_forget (name : String) (v : Value) :
    (e.define name v).forget = e.forget.define name v := by
  refine e.modify_forget (fun s => ?_) e.stack.current
  rfl

/-- Binding a variable in the global scope commutes with forgetting spans. -/
lemma defineGlobal_forget (name : String) (v : Value) :
    (e.defineGlobal name v).forget = e.forget.defineGlobal name v := by
  refine e.modify_forget (fun s => ?_) e.stack.root
  rfl

/-- Declaring a mixin commutes with forgetting spans. -/
lemma defineMixin_forget (m : Mixin) :
    (e.defineMixin m).forget = e.forget.defineMixin m.forget := by
  refine e.modify_forget (fun s => ?_) e.stack.current
  simp only [Scope.defineMixin, Scope.forget, Table.map_insert]
  rfl

/-- Entering a scope below another one commutes with forgetting spans. -/
lemma pushIn_forget (parent : ScopeId) : (e.pushIn parent).forget = e.forget.pushIn parent := by
  simp only [pushIn, forget, Array.map_push, Array.size_map]
  rfl

/-- Entering a scope commutes with forgetting spans. -/
lemma push_forget : e.push.forget = e.forget.push := e.pushIn_forget e.stack.current

end Environment

/-! ### Values and selectors -/

/-- The error with all its spans changed; a fault has none of this source. -/
def EvalError.mapSpans (f : Span → Span) : EvalError → EvalError
  | raised fault span => .raised fault (f span)
  | inImport path cause span => .inImport path (cause.mapSpans f) (f span)

/-- Forgetting the spans of an error twice is forgetting them once. -/
lemma EvalError.forget_forget (e : EvalError) :
    (e.mapSpans Span.forget).mapSpans Span.forget = e.mapSpans Span.forget := by
  induction e with
  | raised fault span => rfl
  | inImport path cause span ih =>
    rw [mapSpans, mapSpans, ih]
    rfl

/-- A message does not tell the place. -/
lemma EvalError.message_mapSpans (f : Span → Span) (e : EvalError) :
    (e.mapSpans f).message = e.message := by
  induction e with
  | raised fault span => rfl
  | inImport path cause span ih => rw [mapSpans, message, message, ih]

namespace Expr

variable (lookup : String → Option Value)

/-- An error of arithmetic differs only by its span. -/
lemma located_forget (span : Span) (r : Except Value.ArithmeticError Value) :
    located span.forget r = (located span r).mapError (EvalError.mapSpans Span.forget) := by
  cases r <;> rfl

/-- The value does not depend on spans, and an error only in its span. -/
lemma value_forget (e : Expr) : (e.mapSpans Span.forget).value lookup =
    (e.value lookup).mapError (EvalError.mapSpans Span.forget) := by
  induction e with
  | var name span =>
    simp only [mapSpans, value]
    cases lookup name <;> rfl
  | negate operand span ih =>
    simp only [mapSpans, value, ih]
    cases operand.value lookup with
    | ok v => exact located_forget span v.negate
    | error e => rfl
  | binary op left right span ihleft ihright =>
    simp only [mapSpans, value, ihleft, ihright]
    cases left.value lookup with
    | ok x =>
      cases right.value lookup with
      | ok y => exact located_forget span (x.binary op y)
      | error e => rfl
    | error e => rfl
  | _ => rfl

/-- The values of expressions depend on spans only in errors. -/
lemma values_forget (es : List Expr) : values lookup (es.map (mapSpans Span.forget)) =
    (values lookup es).mapError (EvalError.mapSpans Span.forget) := by
  induction es with
  | nil => rfl
  | cons e rest ih =>
    simp only [List.map_cons, values, value_forget, ih]
    cases e.value lookup with
    | ok v => cases values lookup rest <;> rfl
    | error e => rfl

end Expr

/-- Splitting a mapped list maps the parts. -/
lemma splitWhere_map {α β : Type} (f : α → β) (p : β → Bool) (l : List α) :
    splitWhere p (l.map f) = (splitWhere (p ∘ f) l).map (List.map f) := by
  induction l with
  | nil => rfl
  | cons a rest ih =>
    simp only [List.map_cons, splitWhere, ih, Function.comp_apply]
    split
    · rfl
    · rcases splitWhere (p ∘ f) rest with _ | ⟨part, more⟩ <;> rfl

namespace Selector

variable (f : Span → Span)

/-- The text of a selector does not depend on spans. -/
lemma render_map (parent : String) (group : List Token) :
    render parent (group.map (Token.mapSpan f)) = render parent group := by
  rw [render, render, List.map_map]
  rfl

/-- The text of a nested selector does not depend on spans. -/
lemma under_map (parent : String) (group : List Token) :
    under parent (group.map (Token.mapSpan f)) = under parent group := by
  rw [under, under, render_map, List.any_map]
  rfl

/-- The groups of a mapped header are mapped groups. -/
lemma groups_map (header : List Token) :
    groups (header.map (Token.mapSpan f)) = (groups header).map (List.map (Token.mapSpan f)) := by
  rw [groups, groups, splitWhere_map, List.filter_map]
  simp only [Function.comp_def, List.isEmpty_map]
  rfl

/-- Selectors do not depend on spans. -/
lemma compose_map (parents : Option (List String)) (header : List Token) :
    compose parents (header.map (Token.mapSpan f)) =
      (compose parents header).mapError (Token.mapSpan f) := by
  cases parents with
  | some parents =>
    simp only [compose, groups_map, List.map_map, Function.comp_def, under_map]
    rfl
  | none =>
    have hfind : (header.map (Token.mapSpan f)).find? isParentReference =
        (header.find? isParentReference).map (Token.mapSpan f) := by
      rw [List.find?_map]
      rfl
    simp only [compose, hfind, groups_map, List.map_map, Function.comp_def, render_map]
    cases header.find? isParentReference <;> rfl

end Selector

/-! ### Statements with other spans -/

namespace Evaluation

namespace Meaning

variable {D : Type} {f : Span → Span} {m : Meaning D}

/-- The constructs with other spans. -/
def mapSpans (f : Span → Span) (m : Meaning D) : Meaning D where
  empty := m.empty
  append := m.append
  assign name value := m.assign name (value.mapSpans f)
  ruleset enclosing header span := m.ruleset enclosing (header.map (Token.mapSpan f)) (f span)
  declare enclosing property values important span :=
    m.declare enclosing (property.mapSpan f) (values.map (Expr.mapSpans f)) important (f span)
  mixin x := m.mixin { x with body := x.body.map (Stmt.mapSpans f) }
  expand enclosing name args span := m.expand enclosing name (args.map (Expr.mapSpans f)) (f span)
  importFile enclosing path span := m.importFile enclosing path (f span)
  branch condition := m.branch (condition.mapSpans f)
  expr value := m.expr (value.mapSpans f)

/-- Runs of statements with mapped spans are runs with a mapped meaning if it is so for each
statement. -/
lemma runAll_mapSpans_of_forall {enclosing : Enclosing} {statements : List Stmt}
    (h : ∀ s ∈ statements, (m.mapSpans f).run enclosing s = m.run enclosing (s.mapSpans f)) :
    (m.mapSpans f).runAll enclosing statements =
      m.runAll enclosing (statements.map (Stmt.mapSpans f)) := by
  induction statements with
  | nil =>
    rw [List.map_nil, runAll, runAll]
    rfl
  | cons first rest ih =>
    rw [List.map_cons, runAll, runAll, h first List.mem_cons_self,
      ih fun s hs => h s (List.mem_cons_of_mem _ hs)]
    rfl

/-- A statement with other spans is run as the statement, by constructs with other spans. -/
lemma run_mapSpans (s : Stmt) (enclosing : Enclosing) :
    (m.mapSpans f).run enclosing s = m.run enclosing (s.mapSpans f) := by
  induction s using Stmt.induct generalizing enclosing with
  | ruleset header rules children span hrules hchildren =>
    have hown := fun selectors => runAll_mapSpans_of_forall fun s hs =>
      hrules s hs (some selectors)
    have hnested := fun selectors => runAll_mapSpans_of_forall fun s hs =>
      hchildren s hs (some selectors)
    rw [Stmt.mapSpans_ruleset, run, run]
    simp only [hown, hnested]
    rfl
  | mixin name params body span _ =>
    obtain ⟨statements, around⟩ := body
    have hparams : (params.map (Ident.mapSpan f)).map Ident.name = params.map Ident.name := by
      rw [List.map_map]
      rfl
    rw [Stmt.mapSpans_mixin, Block.mapSpans, run, run, hparams]
    rfl
  | branch condition yes no span hyes hno =>
    obtain ⟨statements, around⟩ := yes
    have hyes := runAll_mapSpans_of_forall fun s hs => hyes s hs enclosing
    rw [Stmt.mapSpans_branch, Block.mapSpans]
    unfold run
    rcases no with _ | ⟨others, around'⟩
    · rw [hyes]
      rfl
    · have hno := runAll_mapSpans_of_forall fun s hs => hno _ rfl s hs enclosing
      rw [hyes]
      simp only [hno]
      rfl
  | _ =>
    rw [Stmt.mapSpans, run, run]
    rfl

/-- The same of statements. -/
lemma runAll_mapSpans (statements : List Stmt) (enclosing : Enclosing) :
    (m.mapSpans f).runAll enclosing statements =
      m.runAll enclosing (statements.map (Stmt.mapSpans f)) :=
  runAll_mapSpans_of_forall fun s _ => run_mapSpans s enclosing

end Meaning

/-! ### Computations that agree up to spans -/

variable {α β : Type}

def State.forget (s : State) : State := { s with env := s.env.forget }

def Outcome.forget : Outcome α → Outcome α
  | .ok a => .ok a
  | .failed e => .failed (e.mapSpans Span.forget)
  | .tooDeep => .tooDeep

/-- From states that are the same up to spans, both computations end in the same way up to spans. -/
def Alike (x y : Evaluation α) : Prop :=
  ∀ s t : State, s.forget = t.forget →
    (x s).1.forget = (y t).1.forget ∧ (x s).2.forget = (y t).2.forget

namespace State

variable {s t : State}

/-- States that are the same up to spans have such environments. -/
lemma env_eq_of_forget_eq (h : s.forget = t.forget) : s.env.forget = t.env.forget :=
  congrArg State.env h

/-- States that are the same up to spans are importing the same files. -/
lemma pending_eq_of_forget_eq (h : s.forget = t.forget) : s.pending = t.pending := by
  have hpending : s.forget.pending = t.forget.pending := by rw [h]
  exact hpending

/-- States are the same up to spans if their environments are and if they are importing the same
files. -/
lemma forget_eq_of_env_eq (henv : s.env.forget = t.env.forget) (hpending : s.pending = t.pending) :
    s.forget = t.forget := by
  rw [forget, forget, henv, hpending]

/-- States that are the same up to spans find the same values. -/
lemma lookup_eq_of_forget_eq (h : s.forget = t.forget) : s.env.lookup = t.env.lookup := by
  funext name
  rw [← s.env.lookup_forget, env_eq_of_forget_eq h, t.env.lookup_forget]

/-- States that are the same up to spans find the same values in the global scope. -/
lemma lookupGlobal_eq_of_forget_eq (h : s.forget = t.forget) :
    s.env.lookupGlobal = t.env.lookupGlobal := by
  funext name
  rw [← s.env.lookupGlobal_forget, env_eq_of_forget_eq h, t.env.lookupGlobal_forget]

/-- States that are the same up to spans are importing the same paths. -/
lemma isImporting_eq_of_forget_eq (h : s.forget = t.forget) (path : String) :
    s.isImporting path = t.isImporting path := by
  rw [isImporting, isImporting, pending_eq_of_forget_eq h]

/-- Which scopes live in a state does not depend on spans. -/
lemma isAlive_forget (s : State) (id : ScopeId) : s.forget.isAlive id = s.isAlive id :=
  Scopes.isAlive_map_forget s.env.scopes s.holders id

/-- The mixin that an expansion finds, with and without spans. -/
lemma livingMixin_forget (s : State) (name : String) :
    ((s.env.lookupMixin name).filter fun b => s.isAlive b.home).map MixinBinding.forget =
      (s.forget.env.lookupMixin name).filter fun b => s.forget.isAlive b.home := by
  have hlookup : s.forget.env.lookupMixin name =
      (s.env.lookupMixin name).map MixinBinding.forget := s.env.lookupMixin_forget name
  have halive : ∀ b : MixinBinding, s.isAlive b.forget.home = s.isAlive b.home := fun _ => rfl
  simp only [hlookup, isAlive_forget]
  rcases s.env.lookupMixin name with _ | b
  · rfl
  · simp only [Option.filter, Option.map_some, halive]
    split <;> rfl

/-- Ending an import commutes with forgetting spans. -/
lemma endImport_forget (s : State) : s.endImport.forget = s.forget.endImport := by
  obtain ⟨env, pending⟩ := s
  cases pending <;> rfl

end State

/-! ### The parts of a computation -/

/-- Being alike is symmetric. -/
lemma Alike.symm {x y : Evaluation α} (h : Alike x y) : Alike y x := by
  intro s t hst
  have hts := h t s hst.symm
  exact ⟨hts.1.symm, hts.2.symm⟩

/-- Being alike is transitive. -/
lemma Alike.trans {x y z : Evaluation α} (h : Alike x y) (k : Alike y z) : Alike x z := by
  intro s t hst
  have hleft := h s s rfl
  have hright := k s t hst
  exact ⟨hleft.1.trans hright.1, hleft.2.trans hright.2⟩

/-- Doing nothing is alike. -/
lemma alike_pure (a : α) : Alike (pure a) (pure a) := fun _ _ h => ⟨rfl, h⟩

/-- Runs that are too deep are alike. -/
lemma alike_tooDeep : Alike (tooDeep : Evaluation α) tooDeep := fun _ _ h => ⟨rfl, h⟩

/-- Faults agree wherever they are raised. -/
lemma alike_fail (fault : Fault) (span span' : Span) :
    Alike (fail fault span : Evaluation α) (fail fault span') := fun _ _ h => ⟨rfl, h⟩

/-- Results that are the same up to spans are alike. -/
lemma alike_ofExcept (r : Except EvalError α) :
    Alike (ofExcept r) (ofExcept (r.mapError (EvalError.mapSpans Span.forget))) := by
  intro s t h
  cases r with
  | ok a => exact ⟨rfl, h⟩
  | error e => exact ⟨congrArg Outcome.failed e.forget_forget.symm, h⟩

/-- Computations that follow one another are alike if both are. -/
lemma Alike.bind {x y : Evaluation α} {f g : α → Evaluation β} (hxy : Alike x y)
    (hfg : ∀ a, Alike (f a) (g a)) : Alike (x >>= f) (y >>= g) := by
  intro s t hst
  obtain ⟨houtcome, hstate⟩ := hxy s t hst
  change (Evaluation.bind x f s).1.forget = (Evaluation.bind y g t).1.forget ∧
    (Evaluation.bind x f s).2.forget = (Evaluation.bind y g t).2.forget
  unfold Evaluation.bind
  generalize x s = r, y t = r' at houtcome hstate ⊢
  rcases r with ⟨a | e | _, s'⟩ <;> rcases r' with ⟨b | e' | _, t'⟩
  case ok.ok =>
    obtain rfl : a = b := Outcome.ok.inj houtcome
    exact hfg a s' t' hstate
  case failed.failed =>
    have hcause := Outcome.failed.inj houtcome
    exact ⟨congrArg Outcome.failed hcause, hstate⟩
  case tooDeep.tooDeep => exact ⟨rfl, hstate⟩
  -- the two do not end in different ways
  all_goals cases houtcome

/-- A computation that looks at the state. -/
lemma alike_state_bind {f g : State → Evaluation α}
    (h : ∀ s t, s.forget = t.forget → Alike (f s) (g t)) : Alike (state >>= f) (state >>= g) :=
  fun s t hst => h s t hst s t hst

/-- Choices are alike if both of their sides are. -/
lemma alike_ite {c : Prop} [Decidable c] {x x' y y' : Evaluation α} (hx : Alike x x')
    (hy : Alike y y') : Alike (if c then x else y) (if c then x' else y') := by
  by_cases h : c
  · rwa [if_pos h, if_pos h]
  · rwa [if_neg h, if_neg h]

/-- Changes of the scopes are alike if they are the same up to spans. -/
lemma alike_change {f g : Environment → Environment}
    (h : ∀ e e', e.forget = e'.forget → (f e).forget = (g e').forget) :
    Alike (change f) (change g) := by
  intro s t hst
  have henv := h _ _ (State.env_eq_of_forget_eq hst)
  have hpending := State.pending_eq_of_forget_eq hst
  exact ⟨rfl, State.forget_eq_of_env_eq henv hpending⟩

/-- Computations in scopes of their own are alike if the scopes are the same up to spans. -/
lemma Alike.within {enter enter' : Environment → Environment} {x y : Evaluation α}
    (hxy : Alike x y) (h : ∀ e e', e.forget = e'.forget → (enter e).forget = (enter' e').forget) :
    Alike (within enter x) (within enter' y) := by
  intro s t hst
  have henv := h _ _ (State.env_eq_of_forget_eq hst)
  have hpending := State.pending_eq_of_forget_eq hst
  have hentered : ({ s with env := enter s.env } : State).forget =
      ({ t with env := enter' t.env } : State).forget :=
    State.forget_eq_of_env_eq henv hpending
  obtain ⟨houtcome, hstate⟩ := hxy _ _ hentered
  exact ⟨houtcome, congrArg (fun u : State => { u with env := u.env.pop }) hstate⟩

/-- Imports are alike if the runs of their files are, wherever they stand. -/
lemma Alike.importing {x y : Evaluation α} (hxy : Alike x y) (path : String) (span span' : Span) :
    Alike (importing path span x) (importing path span' y) := by
  intro s t hst
  have hbegin : (s.beginImport path).forget = (t.beginImport path).forget :=
    congrArg (fun u : State => u.beginImport path) hst
  obtain ⟨houtcome, hstate⟩ := hxy _ _ hbegin
  have hend : (x (s.beginImport path)).2.endImport.forget =
      (y (t.beginImport path)).2.endImport.forget := by
    rw [State.endImport_forget, State.endImport_forget, hstate]
  unfold Evaluation.importing
  generalize x (s.beginImport path) = r, y (t.beginImport path) = r' at houtcome hend ⊢
  rcases r with ⟨a | e | _, s'⟩ <;> rcases r' with ⟨b | e' | _, t'⟩
  case failed.failed =>
    have hcause := Outcome.failed.inj houtcome
    refine ⟨?_, hend⟩
    simp only [Outcome.forget, EvalError.mapSpans, hcause, Span.forget]
  case ok.ok | tooDeep.tooDeep => exact ⟨houtcome, hend⟩
  all_goals cases houtcome

/-! ### The parts of a statement -/

/-- The values of an expression with and without spans are alike. -/
lemma alike_valueOf (e : Expr) : Alike (valueOf e) (valueOf (e.mapSpans Span.forget)) := by
  refine alike_state_bind fun s t hst => ?_
  rw [Expr.value_forget, State.lookup_eq_of_forget_eq hst]
  exact alike_ofExcept _

/-- The values of expressions with and without spans are alike. -/
lemma alike_valuesOf (es : List Expr) :
    Alike (valuesOf es) (valuesOf (es.map (Expr.mapSpans Span.forget))) := by
  refine alike_state_bind fun s t hst => ?_
  rw [Expr.values_forget, State.lookup_eq_of_forget_eq hst]
  exact alike_ofExcept _

/-- Assignments with and without spans are alike. -/
lemma alike_assign (name : String) (value : Expr) (isGlobal isDefault : Bool) :
    Alike (assign name value isGlobal isDefault)
      (assign name (value.mapSpans Span.forget) isGlobal isDefault) := by
  refine alike_state_bind fun s t hst => ?_
  simp only [State.lookup_eq_of_forget_eq hst, State.lookupGlobal_eq_of_forget_eq hst]
  refine alike_ite (alike_pure ()) ((alike_valueOf value).bind fun v => alike_change ?_)
  intro e e' he
  cases isGlobal
  · change (e.define name v).forget = (e'.define name v).forget
    rw [Environment.define_forget, he, Environment.define_forget]
  · change (e.defineGlobal name v).forget = (e'.defineGlobal name v).forget
    rw [Environment.defineGlobal_forget, he, Environment.defineGlobal_forget]

/-- Where a stray reference is reported depends on whether its span is empty, and nothing else. -/
lemma alike_selectorsOf (enclosing : Enclosing) (header : List Token) (span : Span) :
    Alike (selectorsOf enclosing header span)
      (selectorsOf enclosing (header.map (Token.mapSpan Span.forget)) span.forget) := by
  unfold selectorsOf
  rw [Selector.compose_map]
  cases Selector.compose enclosing header with
  | ok selectors => exact alike_pure selectors
  | error reference => exact alike_fail _ _ _

/-- Declarations with and without spans are alike. -/
lemma alike_declare (enclosing : Enclosing) (property : Token) (values : List Expr)
    (important : Bool) (span : Span) :
    Alike (declare enclosing property values important span)
      (declare enclosing (property.mapSpan Span.forget) (values.map (Expr.mapSpans Span.forget))
        important span.forget) := by
  refine alike_ite (alike_fail _ _ _) ?_
  exact (alike_valuesOf values).bind fun vs => alike_pure _

/-- Conditions with and without spans are alike. -/
lemma alike_truthOf (condition : Expr) :
    Alike (truthOf condition) (truthOf (condition.mapSpans Span.forget)) := by
  refine (alike_valueOf condition).bind fun v => ?_
  cases v with
  | bool b => exact alike_pure b
  | _ => exact alike_fail _ _ _

/-- Binding parameters commutes with forgetting spans. -/
lemma bindParams_forget (params : List String) (values : List Value) (env : Environment) :
    (bindParams params values env).forget = bindParams params values env.forget := by
  unfold bindParams
  induction params.zip values generalizing env with
  | nil => rfl
  | cons p rest ih =>
    rw [List.foldl_cons, List.foldl_cons, ih, Environment.define_forget]

section Statements

variable {setting : Setting} {deeper : Enclosing → List Stmt → Evaluation Output}

/-- Runs statements that are the same up to spans alike. -/
def AlikeOnBodies (deeper : Enclosing → List Stmt → Evaluation Output) : Prop :=
  ∀ enclosing statements statements',
    statements.map (Stmt.mapSpans Span.forget) = statements'.map (Stmt.mapSpans Span.forget) →
      Alike (deeper enclosing statements) (deeper enclosing statements')

/-- Expansions with and without spans are alike if the runs of the bodies are. -/
lemma alike_expand (hdeeper : AlikeOnBodies deeper) (enclosing : Enclosing) (name : String)
    (args : List Expr) (span : Span) :
    Alike (expand deeper enclosing name args span)
      (expand deeper enclosing name (args.map (Expr.mapSpans Span.forget)) span.forget) := by
  refine alike_state_bind fun s t hst => ?_
  have hfound : ((s.env.lookupMixin name).filter fun b => s.isAlive b.home).map
        MixinBinding.forget =
      ((t.env.lookupMixin name).filter fun b => t.isAlive b.home).map MixinBinding.forget := by
    rw [s.livingMixin_forget, hst, t.livingMixin_forget]
  generalize (s.env.lookupMixin name).filter (fun b => s.isAlive b.home) = found,
    (t.env.lookupMixin name).filter (fun b => t.isAlive b.home) = found' at hfound ⊢
  rcases found with _ | b <;> rcases found' with _ | b'
  case none.none => exact alike_fail _ _ _
  case some.some =>
    obtain ⟨hhome, hparams, hbody⟩ := MixinBinding.eq_of_forget_eq (Option.some.inj hfound)
    simp only [List.length_map, hhome, hparams]
    refine alike_ite (alike_fail _ _ _) ((alike_valuesOf args).bind fun values => ?_)
    refine (hdeeper enclosing _ _ hbody).within fun e e' he => ?_
    simp only [bindParams_forget, Environment.pushIn_forget, he]
  all_goals cases hfound

/-- Imports with and without spans are alike if the runs of the files are. -/
lemma alike_importFile (hdeeper : AlikeOnBodies deeper) (enclosing : Enclosing) (path : String)
    (span : Span) :
    Alike (importFile setting deeper enclosing path span)
      (importFile setting deeper enclosing path span.forget) := by
  refine alike_state_bind fun s t hst => ?_
  rw [State.isImporting_eq_of_forget_eq hst]
  refine alike_ite (alike_fail _ _ _) ?_
  cases importedSheet setting path with
  | error fault => exact alike_fail _ _ _
  | ok sheet => exact (hdeeper enclosing sheet sheet rfl).importing path span span.forget

/-- A scope is entered and left alike. -/
lemma Alike.within_push {x y : Evaluation α} (h : Alike x y) :
    Alike (Evaluation.within (·.push) x) (Evaluation.within (·.push) y) := by
  refine h.within fun e e' he => ?_
  rw [Environment.push_forget, he, Environment.push_forget]

/-- A mixin is declared alike with and without the spans of its body. -/
lemma alike_defineMixin (m : Mixin) :
    Alike (change (·.defineMixin m)) (change (·.defineMixin m.forget)) := by
  refine alike_change fun e e' he => ?_
  have hbody : m.forget.forget = m.forget := by
    simp only [Mixin.forget, List.map_map, Stmt.forget_comp_forget]
  rw [Environment.defineMixin_forget, Environment.defineMixin_forget, he, hbody]

/-- Each construct does alike with and without spans. -/
lemma related_alike (hdeeper : AlikeOnBodies deeper) :
    Meaning.Related (fun _ => True) (.ofWays (expand deeper) (importFile setting deeper))
      ((Meaning.ofWays (expand deeper) (importFile setting deeper)).mapSpans Span.forget)
      fun _ x y => Alike x y where
  empty _ := alike_pure _
  append hx hy := hx.bind fun _ => hy.bind fun _ => alike_pure _
  assign _ := (alike_assign _ _ _ _).bind fun _ => alike_pure _
  ruleset _ hbody := (alike_selectorsOf _ _ _).bind fun selectors =>
    (hbody selectors).within_push.bind fun _ => alike_pure _
  declare _ := alike_declare _ _ _ _ _
  mixin _ := (alike_defineMixin _).bind fun _ => alike_pure _
  expand _ := alike_expand hdeeper _ _ _ _
  importFile _ := alike_importFile hdeeper _ _ _
  branch {_ condition _ _ _ _ _ _ _} _ hyes hno := by
    refine (alike_truthOf condition).bind fun truth => ?_
    cases truth with
    | true => exact hyes.within_push
    | false =>
      cases hno with
      | none => exact alike_pure _
      | some hno => exact hno.within_push
  expr _ := (alike_valueOf _).bind fun _ => alike_pure _

/-- Statements run as they do without their spans. -/
lemma alike_runAll (hdeeper : AlikeOnBodies deeper) (statements : List Stmt)
    (enclosing : Enclosing) :
    Alike (runAll setting deeper enclosing statements)
      (runAll setting deeper enclosing (statements.map (Stmt.mapSpans Span.forget))) := by
  rw [runAll_eq_runAllBy, runAll_eq_runAllBy, runAllBy, runAllBy, ← Meaning.runAll_mapSpans]
  exact (related_alike hdeeper).runAll Stmt.hereditary_true (fun _ _ => trivial) enclosing

/-- Both lists run as the one list without spans does. -/
lemma alikeOnBodies_runAll (hdeeper : AlikeOnBodies deeper) :
    AlikeOnBodies (runAll setting deeper) := by
  intro enclosing statements statements' h
  refine (alike_runAll hdeeper statements enclosing).trans ?_
  rw [h]
  exact (alike_runAll hdeeper statements' enclosing).symm

end Statements

/-- By induction on the depth, runs of statements that are the same up to spans are alike. -/
lemma alikeOnBodies_runUpTo (setting : Setting) (depth : Nat) :
    AlikeOnBodies (runUpTo setting depth) := by
  induction depth with
  | zero => exact fun _ _ _ _ => alike_tooDeep
  | succ depth ih => exact alikeOnBodies_runAll ih

end Evaluation

end StyleSheet

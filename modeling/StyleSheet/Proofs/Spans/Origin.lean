import StyleSheet.Proofs.Stacks
import StyleSheet.Proofs.Trace

/-!
# Where mixins come from

Every mixin that a run expands was declared in the sheet that is run or in a file that the run has
imported before.  A predicate on mixins that holds of those is an invariant of the scopes: a scope
binds a mixin only where a declaration of it is run, and the statements that are run are those of
the sheet, of an imported file, or of the body of a mixin that is bound already.
-/

namespace StyleSheet

/-- All mixins that the scopes bind have a property. -/
def Environment.Knows (K : Mixin → Prop) (e : Environment) : Prop :=
  ∀ scope ∈ e.scopes, ∀ entry ∈ scope.mixins.entries, K entry.2.mixin

namespace Environment

variable {K : Mixin → Prop} {e : Environment}

/-- The first scope binds no mixins. -/
lemma knows_initial : initial.Knows K := by
  intro scope hscope entry hentry
  obtain rfl : scope = .below none := by simpa [initial] using hscope
  cases hentry

/-- Entering a scope binds no mixins. -/
lemma Knows.pushIn (h : e.Knows K) (parent : ScopeId) : (e.pushIn parent).Knows K := by
  intro scope hscope entry hentry
  rcases Array.mem_push.mp hscope with hscope | rfl
  · exact h scope hscope entry hentry
  · cases hentry

/-- A change of one scope that binds only mixins with the property keeps it. -/
lemma Knows.modify (h : e.Knows K) (id : ScopeId) {f : Scope → Scope}
    (hf : ∀ scope, (∀ entry ∈ scope.mixins.entries, K entry.2.mixin) →
      ∀ entry ∈ (f scope).mixins.entries, K entry.2.mixin) :
    Knows K { e with scopes := e.scopes.modify id f } := by
  intro scope hscope
  obtain ⟨i, hi, rfl⟩ := Array.mem_iff_getElem.mp hscope
  rw [Array.size_modify] at hi
  rw [Array.getElem_modify]
  have hold := h e.scopes[i] (Array.getElem_mem hi)
  split
  · exact hf _ hold
  · exact hold

/-- Binding a variable binds no mixins. -/
lemma Knows.define (h : e.Knows K) (name : String) (v : Value) : (e.define name v).Knows K :=
  h.modify _ fun _ hscope => hscope

/-- Binding a variable in the global scope binds no mixins. -/
lemma Knows.defineGlobal (h : e.Knows K) (name : String) (v : Value) :
    (e.defineGlobal name v).Knows K :=
  h.modify _ fun _ hscope => hscope

/-- Declaring a mixin that has the property keeps it for all mixins. -/
lemma Knows.defineMixin (h : e.Knows K) {m : Mixin} (hm : K m) : (e.defineMixin m).Knows K := by
  refine h.modify _ fun scope hscope entry hentry => ?_
  rcases List.mem_cons.mp hentry with rfl | hentry
  · exact hm
  · exact hscope entry (List.mem_filter.mp hentry).1

/-- Binding parameters binds no mixins. -/
lemma Knows.bindParams (h : e.Knows K) (params : List String) (values : List Value) :
    (Evaluation.bindParams params values e).Knows K := by
  unfold Evaluation.bindParams
  induction params.zip values generalizing e with
  | nil => exact h
  | cons p ps ih => exact ih (h.define p.1 p.2)

/-- A mixin that is looked up is one that a scope binds. -/
lemma Knows.lookupMixin (h : e.Knows K) {name : String} {b : MixinBinding}
    (hb : e.lookupMixin name = some b) : K b.mixin := by
  obtain ⟨id, -, hid⟩ := List.exists_of_findSome?_eq_some hb
  obtain ⟨scope, hscope, hget⟩ := Option.bind_eq_some_iff.mp hid
  exact h scope (Array.mem_of_getElem? hscope) (name, b) (Table.mem_entries_of_get? hget)

end Environment

/-- The event is neither the entry into a mixin nor the begin of an import. -/
def Event.beginsNothing : Event → Bool
  | .entered _ | .importBegun .. => false
  | _ => true

namespace Evaluation

namespace Traced

variable {α β : Type} {setting : Setting} {K : Mixin → Prop}

/-- From a state whose mixins have the property, and with the property for all that the imported
files declare, the evaluation ends in such a state and enters only mixins that have it.  Its imports
begin with the sheets that are read from their files. -/
def LearnsAt (setting : Setting) (K : Mixin → Prop) (s : State) (x : Traced Event α) : Prop :=
  ∀ ⦃es o t⦄, x s = (es, o, t) → s.env.Knows K →
    (∀ path sheet, .importBegun path sheet ∈ es → ∀ m : Mixin, m.DeclaredIn sheet → K m) →
    t.env.Knows K ∧ (∀ m, .entered m ∈ es → K m) ∧
      ∀ path sheet, .importBegun path sheet ∈ es → importedSheet setting path = .ok sheet

def Learns (setting : Setting) (K : Mixin → Prop) (x : Traced Event α) : Prop :=
  ∀ s, LearnsAt setting K s x

/-- Nothing is entered or imported without a record of it. -/
lemma learns_silent {x : Evaluation α}
    (hx : ∀ s, s.env.Knows K → (x s).2.env.Knows K) : Learns setting K (silent x) := by
  intro s es o t h hknows _
  obtain ⟨rfl, hxs⟩ := silent_eq h
  have ht := hx s hknows
  rw [hxs] at ht
  exact ⟨ht, fun m hm => absurd hm List.not_mem_nil, fun _ _ hin => absurd hin List.not_mem_nil⟩

/-- An evaluation that does nothing learns nothing. -/
lemma learns_pure (a : α) : Learns setting K (pure a : Traced Event α) :=
  learns_silent (x := pure a) fun _ h => h

/-- An event that is recorded enters and imports only what may be entered and imported. -/
lemma learns_emit {event : Event} (hentered : ∀ m, event = .entered m → K m)
    (himport : ∀ path sheet, event = .importBegun path sheet →
      importedSheet setting path = .ok sheet) : Learns setting K (emit event) := by
  intro s es o t h hknows _
  cases h
  refine ⟨hknows, fun m hm => hentered m ?_, fun path sheet hin => himport path sheet ?_⟩
  · exact (List.mem_singleton.mp hm).symm
  · exact (List.mem_singleton.mp hin).symm

/-- Other events enter and import nothing. -/
lemma learns_mark {event : Event} (h : event.beginsNothing = true) :
    Learns setting K (emit event) := by
  refine learns_emit (fun m hm => ?_) fun path sheet himport => ?_
  · rw [hm] at h
    cases h
  · rw [himport] at h
    cases h

/-- Evaluations that follow one another learn only what they learn on their own. -/
lemma Learns.bind {x : Traced Event α} {f : α → Traced Event β} (hx : Learns setting K x)
    (hf : ∀ a, Learns setting K (f a)) : Learns setting K (x >>= f) := by
  intro s es o t h hknows himports
  rcases bind_cases h with ⟨fs, a, u, gs, hxs, hfs, rfl⟩ | ⟨e, hxs, -⟩ | ⟨hxs, -⟩
  · obtain ⟨hu, hentered, himported⟩ := hx s hxs hknows fun path sheet hin =>
      himports path sheet (List.mem_append_left gs hin)
    obtain ⟨ht, hentered', himported'⟩ := hf a u hfs hu fun path sheet hin =>
      himports path sheet (List.mem_append_right fs hin)
    refine ⟨ht, fun m hm => ?_, fun path sheet hin => ?_⟩
    · exact (List.mem_append.mp hm).elim (hentered m) (hentered' m)
    · exact (List.mem_append.mp hin).elim (himported path sheet) (himported' path sheet)
  · exact hx s hxs hknows himports
  · exact hx s hxs hknows himports

/-- A choice learns only what its sides learn. -/
lemma learns_ite {c : Prop} [Decidable c] {x y : Traced Event α} (hx : Learns setting K x)
    (hy : Learns setting K y) : Learns setting K (if c then x else y) :=
  iteInduction (fun _ => hx) fun _ => hy

/-- An evaluation in a scope of its own learns the same. -/
lemma Learns.within {x : Traced Event α} (hx : Learns setting K x)
    {enter : Environment → Environment}
    (henter : ∀ e, e.Knows K → (enter e).Knows K) : Learns setting K (within enter x) := by
  intro s es o t h hknows himports
  obtain ⟨u, hxs, rfl⟩ := within_eq h
  obtain ⟨hu, hevents⟩ := hx { s with env := enter s.env } hxs (henter _ hknows) himports
  exact ⟨hu, hevents⟩

/-- An import changes the stacks and no scope. -/
lemma Learns.importing {x : Traced Event α} (hx : Learns setting K x) (path : String)
    (span : Span) :
    Learns setting K (importing path span x) := by
  intro s es o t h hknows himports
  obtain ⟨o', u, hxs, rfl⟩ := importing_eq h
  obtain ⟨hu, hevents⟩ := hx _ hxs hknows himports
  refine ⟨?_, hevents⟩
  unfold State.endImport
  split
  · exact hu
  · exact hu

/-- What an evaluation does may depend on the state it starts in. -/
lemma learns_state_bind {f : State → Traced Event β}
    (hf : ∀ s, s.env.Knows K → LearnsAt setting K s (f s)) :
    Learns setting K (silent state >>= f) := by
  intro s es o t h hknows himports
  exact hf s hknows (show f s s = _ from h) hknows himports

/-! ### Statements -/

/-- An evaluation that only reads the state. -/
lemma learns_silent_of_eq {x : Evaluation α} (hx : ∀ s, (x s).2 = s) :
    Learns setting K (silent x) :=
  learns_silent fun s hs => by rwa [hx s]

/-- An assignment learns no mixins. -/
lemma learns_assign (name : String) (value : Expr) (isGlobal isDefault : Bool) :
    Learns setting K (assign name value isGlobal isDefault) := by
  refine learns_state_bind fun s _ => learns_ite (learns_pure ()) ?_ s
  refine (learns_silent_of_eq (state_valueOf value)).bind fun v => ?_
  refine (learns_mark rfl).bind fun _ => ?_
  refine learns_silent fun s hs => ?_
  change Environment.Knows K (if isGlobal then s.env.defineGlobal name v else s.env.define name v)
  split
  · exact hs.defineGlobal name v
  · exact hs.define name v

/-- A declaration learns no mixins. -/
lemma learns_declare (enclosing : Enclosing) (property : Token) (values : List Expr)
    (important : Bool) (span : Span) :
    Learns setting K (declare enclosing property values important span) := by
  refine learns_ite (learns_silent_of_eq fun _ => rfl) ?_
  refine (learns_silent_of_eq (state_valuesOf values)).bind fun vs => ?_
  exact (learns_mark rfl).bind fun _ => learns_pure _

section Deeper

variable {deeper : Enclosing → List Stmt → Traced Event Output}
  (hclosed : ∀ m, K m → ∀ m' : Mixin, m'.DeclaredIn m.body → K m')
  (hdeeper : ∀ enclosing statements, (∀ m : Mixin, m.DeclaredIn statements → K m) →
    Learns setting K (deeper enclosing statements))

include hdeeper

include hclosed in
/-- The expansion of a mixin enters one that is known. -/
lemma learns_expand (enclosing : Enclosing) (name : String) (args : List Expr) (span : Span) :
    Learns setting K (expand deeper enclosing name args span) := by
  refine learns_state_bind fun s hs => ?_
  split
  · exact learns_silent_of_eq (fun _ => rfl) s
  · rename_i b hb
    obtain ⟨hlookup, -⟩ := Option.filter_eq_some_iff.mp hb
    have hm : K b.mixin := hs.lookupMixin hlookup
    refine learns_ite (learns_silent_of_eq fun _ => rfl) ?_ s
    refine (learns_silent_of_eq (state_valuesOf args)).bind fun values => ?_
    have hentered : Learns setting K (emit (.entered b.mixin)) := by
      refine learns_emit (fun m h => ?_) nofun
      cases h
      exact hm
    refine hentered.bind fun _ => ?_
    have hbody := hdeeper enclosing b.mixin.body (hclosed b.mixin hm)
    refine (hbody.within fun e he => (he.pushIn _).bindParams _ _).bind fun out => ?_
    exact (learns_mark rfl).bind fun _ => learns_pure _

/-- An import learns what its file declares, and its event tells the sheet of the file. -/
lemma learns_importFile (enclosing : Enclosing) (path : String) (span : Span) :
    Learns setting K (importFile setting deeper enclosing path span) := by
  refine learns_state_bind fun s hs => learns_ite (learns_silent_of_eq fun _ => rfl) ?_ s
  split
  · exact learns_silent_of_eq fun _ => rfl
  · rename_i sheet hsheet
    intro s es o t h hknows himports
    -- The import is recorded first, so what its file declares is known already.
    have hmem : .importBegun path sheet ∈ es := by
      rcases bind_cases h with ⟨fs, _, u, gs, hemit, -, rfl⟩ | ⟨e, hemit, -⟩ | ⟨hemit, -⟩
      · cases hemit
        exact List.mem_cons_self
      · cases hemit
      · cases hemit
    have hfile := hdeeper enclosing sheet (himports path sheet hmem)
    have hbegun : Learns setting K (emit (.importBegun path sheet)) := by
      refine learns_emit nofun fun path' sheet' heq => ?_
      cases heq
      exact hsheet
    have hended : Learns setting K (emit .importEnded) := learns_mark rfl
    have hrest := (hfile.importing path span).bind fun out => hended.bind fun _ => learns_pure out
    exact (hbegun.bind fun _ => hrest) s h hknows himports

include hclosed in
/-- Each construct keeps the invariant in a statement that declares only mixins with the property.
-/
lemma related_learns : Meaning.Related (fun s => ∀ m, s.Declares m → K m) (meaning setting deeper)
    (meaning setting deeper) fun _ x _ => Learns setting K x where
  empty _ := learns_pure _
  append hx hy := hx.bind fun _ => hy.bind fun _ => learns_pure _
  assign _ := (learns_assign _ _ _ _).bind fun _ => learns_pure _
  ruleset {enclosing header _ _ span _ _} _ hbody := by
    refine (learns_silent_of_eq (state_selectorsOf enclosing header span)).bind fun selectors => ?_
    refine (learns_mark rfl).bind fun _ => ?_
    refine ((hbody selectors).within fun e he => he.pushIn _).bind fun _ => ?_
    exact (learns_mark rfl).bind fun _ => learns_pure _
  declare _ := learns_declare _ _ _ _ _
  mixin hs := by
    refine (learns_silent fun s hknows => ?_).bind fun _ => learns_pure _
    exact hknows.defineMixin (hs _ (.here rfl))
  expand _ := learns_expand hclosed hdeeper _ _ _ _
  importFile _ := learns_importFile hdeeper _ _ _
  branch {_ condition _ _ _ _ _ _ _} _ hyes hno := by
    refine (learns_silent_of_eq (state_truthOf condition)).bind fun truth => ?_
    refine learns_ite (hyes.within fun e he => he.pushIn _) ?_
    cases hno with
    | none => exact learns_pure _
    | some hno => exact hno.within fun e he => he.pushIn _
  expr _ := (learns_silent_of_eq (state_valueOf _)).bind fun _ => learns_pure _

omit hdeeper in
/-- What the parts of a statement declare, the statement declares. -/
lemma hereditary_declares : Stmt.Hereditary fun s => ∀ m, s.Declares m → K m where
  rules hs _ hmem m hm := hs m (.rules hmem hm)
  children hs _ hmem m hm := hs m (.children hmem hm)
  yes hs _ hmem m hm := hs m (.yes hmem hm)
  no hs _ hb _ hmem m hm := hs m (.no hb hmem hm)

include hclosed in
/-- Statements that declare only mixins with the property keep the invariant. -/
lemma learns_runAll (enclosing : Enclosing) {statements : List Stmt}
    (hs : ∀ m : Mixin, m.DeclaredIn statements → K m) :
    Learns setting K (runAll setting deeper enclosing statements) :=
  (related_learns hclosed hdeeper).runAll hereditary_declares
    (fun s hmem m hm => hs m ⟨s, hmem, hm⟩) enclosing

end Deeper

/-- By induction on the depth, runs of statements learn only what the statements and the imported
files declare. -/
lemma learns_runUpTo (hclosed : ∀ m, K m → ∀ m' : Mixin, m'.DeclaredIn m.body → K m')
    (depth : Nat) (enclosing : Enclosing) (statements : List Stmt)
    (h : ∀ m : Mixin, m.DeclaredIn statements → K m) :
    Learns setting K (runUpTo setting depth enclosing statements) := by
  induction depth generalizing enclosing statements with
  | zero => exact learns_silent_of_eq fun _ => rfl
  | succ depth ih => exact learns_runAll hclosed ih enclosing h

/-- The mixin is declared in the sheet or in a file whose import is recorded. -/
def DeclaredSoFar (sheet : Sheet) (es : List Event) (m : Mixin) : Prop :=
  m.DeclaredIn sheet ∨ ∃ path imported, .importBegun path imported ∈ es ∧ m.DeclaredIn imported

/-- A mixin in the body of one that is declared is declared as well. -/
lemma DeclaredSoFar.trans {sheet : Sheet} {es : List Event} {m m' : Mixin}
    (h : DeclaredSoFar sheet es m) (hm' : m'.DeclaredIn m.body) : DeclaredSoFar sheet es m' := by
  rcases h with hin | ⟨path, imported, hbegun, hin⟩
  · exact .inl (hin.trans hm')
  · exact .inr ⟨path, imported, hbegun, hin.trans hm'⟩

/-- A mixin that a sheet enters, from a state without mixins, was declared in the sheet or in a file
that was imported. -/
lemma declaredIn_of_entered {sheet : Sheet} {t : State} {es : List Event} {o : Outcome Output}
    (h : runSheet setting sheet .initial = (es, o, t)) {m : Mixin} (hm : .entered m ∈ es) :
    m.DeclaredIn sheet ∨ ∃ path imported, .importBegun path imported ∈ es ∧
      importedSheet setting path = .ok imported ∧ m.DeclaredIn imported := by
  have hclosed : ∀ m, DeclaredSoFar sheet es m → ∀ m' : Mixin, m'.DeclaredIn m.body →
      DeclaredSoFar sheet es m' := fun _ h _ hm' => h.trans hm'
  have hsheet : Learns setting (DeclaredSoFar sheet es) (runSheet setting sheet) :=
    learns_runAll hclosed (learns_runUpTo hclosed setting.maxDepth) none fun _ => .inl
  obtain ⟨-, hentered, himported⟩ := hsheet .initial h Environment.knows_initial
    fun path imported hbegun m hin => .inr ⟨path, imported, hbegun, hin⟩
  rcases hentered m hm with hin | ⟨path, imported, hbegun, hin⟩
  · exact .inl hin
  · exact .inr ⟨path, imported, hbegun, himported path imported hbegun, hin⟩

end Traced

end Evaluation

end StyleSheet

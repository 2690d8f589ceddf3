import StyleSheet.Proofs.Trace

/-!
# The code that an error stands in

When a run fails, what it had entered and not left is read off its trace: the bodies of mixins and
the imported files around the statement that failed.  An import puts its own place in front of an
error that comes out of it, and the expansion of a mixin does not.  So an error stands in the
innermost body of a mixin that was entered outside of all open imports (`Trace.blamed`), and in the
statements that were run if there is none.
-/

namespace StyleSheet

/-- What a run is inside of. -/
inductive Frame where
  | mixin (m : Mixin)
  | file (path : String)

namespace Trace

/-- What a run is inside of after the events, innermost first. -/
def frames : List Frame → List Event → List Frame
  | fs, [] => fs
  | fs, .entered m :: rest => frames (.mixin m :: fs) rest
  | fs, .importBegun path _ :: rest => frames (.file path :: fs) rest
  | fs, .left :: rest => frames fs.tail rest
  | fs, .importEnded :: rest => frames fs.tail rest
  | fs, _ :: rest => frames fs rest

/-- The innermost mixin outside of all files; the frames are given outermost first. -/
def outsideFiles : List Frame → Option Mixin
  | .mixin m :: rest => some ((outsideFiles rest).getD m)
  | _ => none

/-- The mixin whose body an error at the end of the trace stands in, if it stands in one. -/
def blamed (es : List Event) : Option Mixin := outsideFiles (frames [] es).reverse

/-- Events that follow others change what these have left. -/
lemma frames_append (fs : List Frame) (es gs : List Event) :
    frames fs (es ++ gs) = frames (frames fs es) gs := by
  induction es generalizing fs with
  | nil => rfl
  | cons e es ih =>
    cases e with
    | entered m => exact ih (.mixin m :: fs)
    | importBegun path sheet => exact ih (.file path :: fs)
    | left => exact ih fs.tail
    | importEnded => exact ih fs.tail
    | _ => exact ih fs

/-- A run is inside of a mixin only if it entered it. -/
lemma entered_of_mem_frames {m : Mixin} {fs : List Frame} {es : List Event}
    (h : .mixin m ∈ frames fs es) : .mixin m ∈ fs ∨ .entered m ∈ es := by
  induction es generalizing fs with
  | nil => exact .inl h
  | cons e es ih =>
    have hcons : ∀ gs, .mixin m ∈ frames gs es →
        (.mixin m ∈ gs → .mixin m ∈ fs ∨ .entered m ∈ e :: es) →
        .mixin m ∈ fs ∨ .entered m ∈ e :: es := by
      intro gs hgs hmem
      rcases ih hgs with hin | hin
      · exact hmem hin
      · exact .inr (List.mem_cons_of_mem e hin)
    cases e with
    | entered m' =>
      refine hcons _ h fun hin => ?_
      rcases List.mem_cons.mp hin with heq | hin
      · cases heq
        exact .inr List.mem_cons_self
      · exact .inl hin
    | importBegun path sheet =>
      refine hcons _ h fun hin => ?_
      rcases List.mem_cons.mp hin with heq | hin
      · cases heq
      · exact .inl hin
    | left => exact hcons _ h fun hin => .inl (List.mem_of_mem_tail hin)
    | importEnded => exact hcons _ h fun hin => .inl (List.mem_of_mem_tail hin)
    | _ => exact hcons _ h .inl

/-- The innermost mixin outside of all files is one of the frames. -/
lemma mem_of_outsideFiles {m : Mixin} {fs : List Frame} (h : outsideFiles fs = some m) :
    .mixin m ∈ fs := by
  induction fs generalizing m with
  | nil => cases h
  | cons f fs ih =>
    cases f with
    | file path => cases h
    | mixin m' =>
      rw [outsideFiles, Option.some.injEq] at h
      cases hrest : outsideFiles fs with
      | none =>
        rw [hrest] at h
        obtain rfl : m' = m := h
        exact List.mem_cons_self
      | some m'' =>
        rw [hrest] at h
        obtain rfl : m'' = m := h
        exact List.mem_cons_of_mem _ (ih hrest)

/-- A blamed mixin was entered. -/
lemma entered_of_blamed {m : Mixin} {es : List Event} (h : blamed es = some m) :
    .entered m ∈ es := by
  have hmem := List.mem_reverse.mp (mem_of_outsideFiles h)
  rcases entered_of_mem_frames hmem with hin | hin
  · cases hin
  · exact hin

end Trace

open Trace

/-! ### Errors of expressions -/

section Values

variable {P : Span → Prop}

/-- A sequence fails as its first part does, or as the second does after the first. -/
lemma bind_eq_error {ε α β : Type} {x : Except ε α} {f : α → Except ε β} {e : ε}
    (h : (x >>= f) = .error e) : x = .error e ∨ ∃ a, x = .ok a ∧ f a = .error e := by
  cases x with
  | error e' =>
    cases h
    exact .inl rfl
  | ok a => exact .inr ⟨a, rfl, h⟩

/-- The relation holds of all faults of the expression. -/
def Expr.RaisesOnly (F : Fault → Span → Prop) : Expr → Prop
  | var name span => F (.undefinedVariable name) span
  | negate operand span => operand.RaisesOnly F ∧ ∀ cause, F (.ofArithmetic cause) span
  | binary _ left right span =>
    left.RaisesOnly F ∧ right.RaisesOnly F ∧ ∀ cause, F (.ofArithmetic cause) span
  | number .. | text .. | color .. | bool .. | selector _ => True

/-- The relation holds of a fault that is raised at its place, and the error comes out of no
import. -/
def EvalError.RaisedIn (F : Fault → Span → Prop) (e : EvalError) : Prop :=
  ∃ fault span, e = .raised fault span ∧ F fault span

namespace Expr

variable {F : Fault → Span → Prop}

/-- An error of arithmetic is raised at the place of the operation. -/
lemma raisedIn_located {span : Span} (hspan : ∀ cause, F (.ofArithmetic cause) span)
    {r : Except Value.ArithmeticError Value} {err : EvalError} (h : located span r = .error err) :
    err.RaisedIn F := by
  cases r with
  | ok v => cases h
  | error cause =>
    cases h
    exact ⟨_, _, rfl, hspan cause⟩

/-- By induction on the expression, an error of its value is one of its faults. -/
lemma RaisesOnly.raisedIn_value {lookup : String → Option Value} {e : Expr} {err : EvalError}
    (he : e.RaisesOnly F) (h : e.value lookup = .error err) : err.RaisedIn F := by
  induction e generalizing err with
  | var name span =>
    rw [value] at h
    split at h
    · cases h
    · cases h
      exact ⟨_, _, rfl, he⟩
  | negate operand span ih =>
    rw [value] at h
    rcases bind_eq_error h with hoperand | ⟨v, -, hv⟩
    · exact ih he.1 hoperand
    · exact raisedIn_located he.2 hv
  | binary op left right span ihleft ihright =>
    rw [value] at h
    rcases bind_eq_error h with hleft | ⟨x, -, hrest⟩
    · exact ihleft he.1 hleft
    · rcases bind_eq_error hrest with hright | ⟨y, -, hxy⟩
      · exact ihright he.2.1 hright
      · exact raisedIn_located he.2.2 hxy
  | _ => cases h

/-- An error of the values of expressions is a fault of one of them. -/
lemma raisedIn_values {lookup : String → Option Value} {es : List Expr} {err : EvalError}
    (hes : ∀ e ∈ es, e.RaisesOnly F) (h : Expr.values lookup es = .error err) : err.RaisedIn F := by
  induction es with
  | nil => cases h
  | cons e es ih =>
    rw [values] at h
    rcases bind_eq_error h with hfirst | ⟨v, -, hrest⟩
    · exact (hes e List.mem_cons_self).raisedIn_value hfirst
    · rcases bind_eq_error hrest with hothers | ⟨vs, -, hret⟩
      · exact ih (fun e he => hes e (List.mem_cons_of_mem _ he)) hothers
      · cases hret

/-- Faults stand at spans of the expression. -/
lemma Located.raisesOnly {e : Expr} (h : e.Located P) : e.RaisesOnly fun _ => P := by
  induction e with
  | var name span => exact h
  | negate operand span ih => exact ⟨ih h.1, fun _ => h.2⟩
  | binary op left right span ihleft ihright => exact ⟨ihleft h.1, ihright h.2.1, fun _ => h.2.2⟩
  | _ => trivial

end Expr

/-- The place of an error that comes out of no import is where its fault was raised. -/
lemma EvalError.RaisedIn.span {e : EvalError} (h : e.RaisedIn fun _ => P) : P e.span := by
  obtain ⟨fault, span, rfl, hspan⟩ := h
  exact hspan

/-- Headers are composed up to an `&` in them that stands for nothing. -/
lemma Selector.mem_of_compose {enclosing : Enclosing} {header : List Token} {reference : Token}
    (h : compose enclosing header = .error reference) :
    reference ∈ header ∧ reference.kind = .parentReference := by
  unfold compose at h
  split at h
  · cases h
  · split at h
    · rename_i hfind
      cases h
      have hkind := List.find?_some hfind
      exact ⟨List.mem_of_find?_eq_some hfind, by simpa [isParentReference] using hkind⟩
    · cases h

end Values

namespace Evaluation

/-! ### Failing in the code that runs -/

/-- All spans of some code have a property. -/
abbrev Code := (Span → Prop) → Prop

/-- Statements as code. -/
def codeOf (statements : List Stmt) : Code := fun P => ∀ s ∈ statements, s.Located P

/-- Errors of the evaluation stand in the code. -/
def FailsIn {α : Type} (code : Code) (x : Evaluation α) : Prop :=
  ∀ ⦃s e t⦄, x s = (.failed e, t) → ∀ P, code P → P e.span

section FailsIn

variable {α : Type} {code : Code}

/-- A failure at a place of the code stands in the code. -/
lemma failsIn_fail {fault : Fault} {span : Span} (h : ∀ P, code P → P span) :
    FailsIn code (fail fault span : Evaluation α) := by
  intro s e t hfail P hP
  cases hfail
  exact h P hP

/-- Asking for the state does not fail. -/
lemma failsIn_state : FailsIn code state := by
  intro s e t h
  cases h

/-- Changing the scopes does not fail. -/
lemma failsIn_change (f : Environment → Environment) : FailsIn code (change f) := by
  intro s e t h
  cases h

/-- An expression of the code fails in the code. -/
lemma failsIn_valueOf {e : Expr} (he : ∀ P, code P → e.Located P) : FailsIn code (valueOf e) := by
  intro s err t h P hP
  change ofExcept (e.value s.env.lookup) s = _ at h
  cases hvalue : e.value s.env.lookup with
  | ok v =>
    rw [hvalue] at h
    cases h
  | error err' =>
    rw [hvalue] at h
    cases h
    exact ((he P hP).raisesOnly.raisedIn_value hvalue).span

/-- Expressions of the code fail in the code. -/
lemma failsIn_valuesOf {es : List Expr} (hes : ∀ P, code P → ∀ e ∈ es, e.Located P) :
    FailsIn code (valuesOf es) := by
  intro s err t h P hP
  change ofExcept (Expr.values s.env.lookup es) s = _ at h
  cases hvalues : Expr.values s.env.lookup es with
  | ok vs =>
    rw [hvalues] at h
    cases h
  | error err' =>
    rw [hvalues] at h
    cases h
    exact (Expr.raisedIn_values (fun e he => (hes P hP e he).raisesOnly) hvalues).span

/-- An error in a header stands at its `&`, or at the ruleset if that has no place. -/
lemma failsIn_selectorsOf {enclosing : Enclosing} {header : List Token} {span : Span}
    (hheader : ∀ P, code P → ∀ t ∈ header, P t.span) (hspan : ∀ P, code P → P span) :
    FailsIn code (selectorsOf enclosing header span) := by
  intro s err t h P hP
  unfold selectorsOf at h
  cases hcompose : Selector.compose enclosing header with
  | ok selectors =>
    rw [hcompose] at h
    cases h
  | error reference =>
    rw [hcompose] at h
    have hmem := (Selector.mem_of_compose hcompose).1
    cases h
    change P (if reference.span.isEmpty then span else reference.span)
    split
    · exact hspan P hP
    · exact hheader P hP reference hmem

/-- A condition of the code fails in the code. -/
lemma failsIn_truthOf {condition : Expr} (h : ∀ P, code P → condition.Located P) :
    FailsIn code (truthOf condition) := by
  intro s err t htruth P hP
  change Evaluation.bind (valueOf condition) _ s = _ at htruth
  unfold Evaluation.bind at htruth
  rcases hvalue : valueOf condition s with ⟨v | e | _, u⟩
  · rw [hvalue] at htruth
    cases v with
    | bool b => cases htruth
    | _ =>
      cases htruth
      exact (h P hP).span
  · rw [hvalue] at htruth
    cases htruth
    exact failsIn_valueOf h hvalue P hP
  · rw [hvalue] at htruth
    cases htruth

end FailsIn

/-! ### Failing below the code that runs -/

/-- The body of the mixin, or the code itself if there is none. -/
def Code.of (code : Code) : Option Mixin → Code
  | none => code
  | some m => codeOf m.body

namespace Traced

variable {α β : Type} {code : Code}

/-- A success leaves all that it enters.  An error stands in the innermost body of a mixin that was
entered outside of all open imports, or in the code itself. -/
structure Blames (code : Code) (x : Traced Event α) : Prop where
  ok : ∀ ⦃s es a t⦄, x s = (es, .ok a, t) → ∀ fs, frames fs es = fs
  failed : ∀ ⦃s es e t⦄, x s = (es, .failed e, t) → ∃ fs, (∀ gs, frames gs es = fs ++ gs) ∧
    ∀ P, code.of (outsideFiles fs.reverse) P → P e.span

/-- An evaluation without events blames the code if it fails in the code. -/
lemma blames_silent {x : Evaluation α} (hx : FailsIn code x) : Blames code (silent x) where
  ok s es a t h := by
    obtain ⟨rfl, -⟩ := silent_eq h
    exact fun _ => rfl
  failed s es e t h := by
    obtain ⟨rfl, hfail⟩ := silent_eq h
    exact ⟨[], fun _ => rfl, fun P hP => hx hfail P hP⟩

/-- An evaluation that does nothing blames nothing. -/
lemma blames_pure (a : α) : Blames code (pure a : Traced Event α) := by
  constructor
  · rintro s es b t ⟨⟩ fs
    rfl
  · rintro s es e t ⟨⟩

/-- Events that enter and leave nothing. -/
lemma blames_emit {event : Event} (hevent : ∀ fs, frames fs [event] = fs) :
    Blames code (emit event) := by
  constructor
  · rintro s es a t ⟨⟩
    exact hevent
  · rintro s es e t ⟨⟩

/-- Evaluations that follow one another blame the same code: a success leaves all that it enters. -/
lemma Blames.bind {x : Traced Event α} {f : α → Traced Event β} (hx : Blames code x)
    (hf : ∀ a, Blames code (f a)) : Blames code (x >>= f) where
  ok s es b t h := by
    obtain ⟨fs, a, u, gs, hxs, hfs, rfl⟩ := bind_ok h
    intro hs
    rw [frames_append, hx.ok hxs, (hf a).ok hfs]
  failed s es e t h := by
    rcases bind_failed h with hxs | ⟨fs, a, u, gs, hxs, hfs, rfl⟩
    · exact hx.failed hxs
    · obtain ⟨hs, hopen, hspan⟩ := (hf a).failed hfs
      exact ⟨hs, fun gs => by rw [frames_append, hx.ok hxs, hopen], hspan⟩

/-- A choice blames the code if both of its sides do. -/
lemma blames_ite {c : Prop} [Decidable c] {x y : Traced Event α} (hx : Blames code x)
    (hy : Blames code y) : Blames code (if c then x else y) :=
  iteInduction (fun _ => hx) fun _ => hy

/-- An evaluation in a scope of its own blames the same code. -/
lemma Blames.within {x : Traced Event α} (hx : Blames code x) (enter : Environment → Environment) :
    Blames code (within enter x) where
  ok s es a t h := by
    obtain ⟨u, hxs, -⟩ := within_eq h
    exact hx.ok hxs
  failed s es e t h := by
    obtain ⟨u, hxs, -⟩ := within_eq h
    exact hx.failed hxs

/-- An error that comes out of the body of a mixin stands in that body or deeper. -/
lemma Blames.entered {x : Traced Event α} {m : Mixin} (hx : Blames (codeOf m.body) x) :
    Blames code (do emit (.entered m); let v ← x; emit .left; return v) where
  ok s es a t h := by
    obtain ⟨fs, v, hxs, -, rfl⟩ := between_ok h
    intro gs
    rw [List.cons_append, frames, frames_append, hx.ok hxs]
    rfl
  failed s es e t h := by
    obtain ⟨es, hxs, rfl⟩ := between_failed h
    obtain ⟨fs, hopen, hspan⟩ := hx.failed hxs
    refine ⟨fs ++ [.mixin m], fun gs => ?_, fun P hP => hspan P ?_⟩
    · rw [frames, hopen, List.append_assoc]
      rfl
    · rw [List.reverse_append] at hP
      change codeOf ((outsideFiles fs.reverse).getD m).body P at hP
      cases hrest : outsideFiles fs.reverse with
      | none =>
        rw [hrest] at hP
        exact hP
      | some m' =>
        rw [hrest] at hP
        exact hP

/-- An error that comes out of an imported file stands at the import. -/
lemma Blames.imported {x : Traced Event α} {path : String} {sheet : Sheet} {span : Span}
    {inside : Code}
    (hx : Blames inside x) (hspan : ∀ P, code P → P span) :
    Blames code (do
      emit (.importBegun path sheet)
      let v ← importing path span x
      emit .importEnded
      return v) where
  ok s es a t h := by
    obtain ⟨fs, v, himport, -, rfl⟩ := between_ok h
    obtain ⟨u, hxs, -⟩ := importing_ok himport
    intro gs
    rw [List.cons_append, frames, frames_append, hx.ok hxs]
    rfl
  failed s es e t h := by
    obtain ⟨es, himport, rfl⟩ := between_failed h
    obtain ⟨e', u, hxs, rfl⟩ := importing_failed himport
    obtain ⟨fs, hopen, -⟩ := hx.failed hxs
    refine ⟨fs ++ [.file path], fun gs => ?_, fun P hP => hspan P ?_⟩
    · rw [frames, hopen, List.append_assoc]
      rfl
    · rw [List.reverse_append] at hP
      exact hP

/-- An assignment blames the code of its value. -/
lemma blames_assign {name : String} {value : Expr} {isGlobal isDefault : Bool}
    (hvalue : ∀ P, code P → value.Located P) :
    Blames code (assign name value isGlobal isDefault) := by
  refine (blames_silent failsIn_state).bind fun s => blames_ite (blames_pure ()) ?_
  refine (blames_silent (failsIn_valueOf hvalue)).bind fun v => ?_
  exact (blames_emit fun _ => rfl).bind fun _ => blames_silent (failsIn_change _)

/-- A declaration blames the code of its values, or its own place. -/
lemma blames_declare {enclosing : Enclosing} {property : Token} {values : List Expr}
    {important : Bool} {span : Span} (hvalues : ∀ P, code P → ∀ e ∈ values, e.Located P)
    (hspan : ∀ P, code P → P span) :
    Blames code (declare enclosing property values important span) := by
  refine blames_ite (blames_silent (failsIn_fail hspan)) ?_
  refine (blames_silent (failsIn_valuesOf hvalues)).bind fun vs => ?_
  exact (blames_emit fun _ => rfl).bind fun _ => blames_pure _

section Deeper

variable {setting : Setting} {deeper : Enclosing → List Stmt → Traced Event Output}
  (hdeeper : ∀ enclosing statements, Blames (codeOf statements) (deeper enclosing statements))

include hdeeper

/-- The expansion of a mixin blames the code of its arguments, or the body of the mixin once it is
entered. -/
lemma blames_expand {enclosing : Enclosing} {name : String} {args : List Expr} {span : Span}
    (hargs : ∀ P, code P → ∀ e ∈ args, e.Located P) (hspan : ∀ P, code P → P span) :
    Blames code (expand deeper enclosing name args span) := by
  refine (blames_silent failsIn_state).bind fun s => ?_
  split
  · exact blames_silent (failsIn_fail hspan)
  · refine blames_ite (blames_silent (failsIn_fail hspan)) ?_
    refine (blames_silent (failsIn_valuesOf hargs)).bind fun values => ?_
    exact Blames.entered ((hdeeper _ _).within _)

/-- An import blames its own place, whatever fails in its file. -/
lemma blames_importFile {enclosing : Enclosing} {path : String} {span : Span}
    (hspan : ∀ P, code P → P span) :
    Blames code (importFile setting deeper enclosing path span) := by
  refine (blames_silent failsIn_state).bind fun s => ?_
  refine blames_ite (blames_silent (failsIn_fail hspan)) ?_
  split
  · exact blames_silent (failsIn_fail hspan)
  · exact Blames.imported (hdeeper _ _) hspan

/-- An error of a construct stands in the code that the statement is part of, or deeper. -/
lemma related_blames : Meaning.Related (fun s => ∀ P, code P → s.Located P) (meaning setting deeper)
    (meaning setting deeper) fun _ x _ => Blames code x where
  empty _ := blames_pure _
  append hx hy := hx.bind fun _ => hy.bind fun _ => blames_pure _
  assign hs := by
    refine (blames_assign fun P hP => ?_).bind fun _ => blames_pure _
    cases hs P hP with
    | assign _ hvalue => exact hvalue
  ruleset hs hbody := by
    refine (blames_silent (failsIn_selectorsOf (fun P hP => ?_) fun P hP => (hs P hP).span)).bind
      fun selectors => ?_
    · cases hs P hP with
      | ruleset hheader => exact hheader
    · refine (blames_emit fun _ => rfl).bind fun _ => ((hbody selectors).within _).bind fun _ => ?_
      exact (blames_emit fun _ => rfl).bind fun _ => blames_pure _
  declare hs := by
    refine blames_declare (fun P hP => ?_) (fun P hP => (hs P hP).span)
    cases hs P hP with
    | declare _ hvalues => exact hvalues
  mixin _ := (blames_silent (failsIn_change _)).bind fun _ => blames_pure _
  expand hs := by
    refine blames_expand hdeeper (fun P hP => ?_) (fun P hP => (hs P hP).span)
    cases hs P hP with
    | expand hargs => exact hargs
  importFile hs := blames_importFile hdeeper fun P hP => (hs P hP).span
  branch hs hyes hno := by
    refine (blames_silent (failsIn_truthOf fun P hP => ?_)).bind fun truth => ?_
    · cases hs P hP with
      | branch hcondition => exact hcondition
    · refine blames_ite (hyes.within _) ?_
      cases hno with
      | none => exact blames_pure _
      | some hno => exact hno.within _
  expr hs := by
    refine (blames_silent (failsIn_valueOf fun P hP => ?_)).bind fun _ => blames_pure _
    cases hs P hP with
    | expr hvalue => exact hvalue

omit hdeeper in
/-- The parts of a statement stand where the statement stands. -/
lemma hereditary_located : Stmt.Hereditary fun s => ∀ P, code P → s.Located P where
  rules hs s hmem P hP := by
    cases hs P hP with
    | ruleset _ hrules => exact hrules s hmem
  children hs s hmem P hP := by
    cases hs P hP with
    | ruleset _ _ hchildren => exact hchildren s hmem
  yes hs s hmem P hP := by
    cases hs P hP with
    | branch _ hyes => exact hyes s hmem
  no hs b hb s hmem P hP := by
    cases hs P hP with
    | branch _ _ _ hno => exact hno b hb s hmem

/-- An error of statements stands in them, or deeper. -/
lemma blames_runAll (enclosing : Enclosing) (statements : List Stmt) :
    Blames (codeOf statements) (runAll setting deeper enclosing statements) :=
  (related_blames hdeeper).runAll hereditary_located (fun s hmem _ hP => hP s hmem) enclosing

end Deeper

/-- By induction on the depth, runs of statements blame the statements. -/
lemma blames_runUpTo (setting : Setting) (depth : Nat) (enclosing : Enclosing)
    (statements : List Stmt) :
    Blames (codeOf statements) (runUpTo setting depth enclosing statements) := by
  induction depth generalizing enclosing statements with
  | zero =>
    refine blames_silent ?_
    rintro s e t ⟨⟩
  | succ depth ih => exact blames_runAll ih enclosing statements

/-- An error of a sheet stands in the body of the blamed mixin, and in the sheet if there is
none. -/
lemma span_of_failed_runSheet {setting : Setting} {sheet : Sheet} {s t : State} {es : List Event}
    {e : EvalError} (h : runSheet setting sheet s = (es, .failed e, t)) {P : Span → Prop}
    (hP : (codeOf sheet).of (blamed es) P) : P e.span := by
  have hsheet : Blames (codeOf sheet) (runSheet setting sheet) :=
    blames_runAll (blames_runUpTo setting setting.maxDepth) none sheet
  obtain ⟨fs, hopen, hspan⟩ := hsheet.failed h
  have hframes : frames [] es = fs := by rw [hopen, List.append_nil]
  rw [blamed, hframes] at hP
  exact hspan P hP

end Traced

end Evaluation

end StyleSheet

import Mathlib.Tactic.Lemma
import StyleSheet.Evaluation.Expression

/-!
# Kinds and units of values

The shape of a value is its kind and, for a dimension, its unit.  What shape an operation gives, and
whether it can be applied at all, is told by the shapes of its operands alone: magnitudes, texts and
truth values play no part in it.  There is one exception, the division by a magnitude of zero, which
has no result.

So the operators have an abstraction on shapes (`Value.Shape.result?`), and with it the shape of an
expression can be computed from the shapes of its variables (`Expr.shape`).  Up to a division by
zero this is the shape of its value, and an error that it gives is the error of its evaluation
(`Expr.told_value`).
-/

namespace StyleSheet

/-! ### Operators on shapes -/

namespace Value

namespace Shape

/-- A number, with a unit or without. -/
def ofUnit : Option String → Shape
  | some unit => dimension unit
  | none => number

def isTextual : Shape → Bool
  | text | color => true
  | _ => false

/-- The shape that two numeric operands have in common: a plain number takes the unit of the other
one, and two dimensions have to agree. -/
def common? : Shape → Shape → Option Shape
  | number, number => some number
  | dimension unit, number | number, dimension unit => some (dimension unit)
  | dimension u, dimension v => if u = v then some (dimension u) else none
  | _, _ => none

/-- The shape of the result of an operation; none for operands that it is not made for. -/
def result? (op : Operator) (left right : Shape) : Option Shape :=
  match op, left, right with
  | .equal, _, _ | .notEqual, _, _ => some bool
  | .less, _, _ | .greater, _, _ => (common? left right).map fun _ => bool
  | .add, _, _ => if left.isTextual || right.isTextual then some text else common? left right
  | .sub, _, _ => common? left right
  | .mul, dimension _, dimension _ => none
  | .mul, _, _ => common? left right
  | .div, dimension u, dimension v => if u = v then some number else none
  | .div, number, dimension _ => none
  | .div, _, _ => common? left right

/-- The shape of a binary operation, or its misuse. -/
def binary (op : Operator) (left right : Shape) : Except Misuse Shape :=
  match result? op left right with
  | some s => .ok s
  | none => .error (.binary op left right)

/-- The shape of a negation, or its misuse. -/
def negate : Shape → Except Misuse Shape
  | number => .ok number
  | dimension unit => .ok (dimension unit)
  | s => .error (.negation s)

end Shape

/-- What an operation gives is foretold by shapes: its result is of the shape, and it is misused
where the shapes say so. -/
def Foretold (r : Except ArithmeticError Value) (s : Except Misuse Shape) : Prop :=
  r.map shape = s.mapError .misuse

variable {v w : Value} {op : Operator}

/-- The shape of a number is told by its unit. -/
lemma shape_ofNumeric (x : Float) (unit : Option String) :
    (ofNumeric x unit).shape = .ofUnit unit := by
  cases unit <;> rfl

/-- Whether a value counts as text is told by its shape. -/
lemma isTextual_shape (v : Value) : v.shape.isTextual = v.isTextual := by cases v <;> rfl

/-- Two operands have magnitudes with a common unit just if their shapes say so. -/
lemma common?_shape (v w : Value) :
    Shape.common? v.shape w.shape = (numericOperands? v w).map fun p => .ofUnit p.2.2 := by
  cases v with
  | number x => cases w <;> rfl
  | dimension x u =>
    cases w with
    | dimension y u' =>
      by_cases hunit : u = u'
      · simp [shape, Shape.common?, numericOperands?, numeric?, commonUnit?, Shape.ofUnit, hunit]
      · simp [shape, Shape.common?, numericOperands?, numeric?, commonUnit?, hunit]
    | _ => rfl
  | _ => rfl

section Numeric

variable {x y : Float} {unit : Option String}

/-- Numeric operands have the shape of their common unit. -/
lemma common?_of_operands (h : numericOperands? v w = some (x, y, unit)) :
    Shape.common? v.shape w.shape = some (.ofUnit unit) := by
  rw [common?_shape, h]
  rfl

/-- A number with the common unit is foretold where the shapes ask for the common shape. -/
lemma foretold_ofNumeric (hoperands : numericOperands? v w = some (x, y, unit))
    (hresult : Shape.result? op v.shape w.shape = Shape.common? v.shape w.shape) (z : Float) :
    Foretold (.ok (ofNumeric z unit)) (Shape.binary op v.shape w.shape) := by
  have hcommon := common?_of_operands hoperands
  rw [Foretold, Shape.binary, hresult, hcommon, Except.map, shape_ofNumeric]
  rfl

/-- Operands that an operation is not made for are a misuse of it. -/
lemma foretold_mismatch (h : Shape.result? op v.shape w.shape = none) :
    Foretold (.error (mismatch op v w)) (Shape.binary op v.shape w.shape) := by
  rw [Shape.binary, h]
  rfl

/-- An operation on magnitudes is foretold if it is where there are magnitudes, and if the shapes
have no result where there are none. -/
lemma foretold_onNumbers {f : Float → Float → Option String → Except ArithmeticError Value}
    (hsome : ∀ x y unit, numericOperands? v w = some (x, y, unit) →
      Foretold (f x y unit) (Shape.binary op v.shape w.shape))
    (hnone : Shape.common? v.shape w.shape = none → Shape.result? op v.shape w.shape = none) :
    Foretold (onNumbers op v w f) (Shape.binary op v.shape w.shape) := by
  unfold onNumbers
  cases hoperands : numericOperands? v w with
  | none =>
    have hcommon : Shape.common? v.shape w.shape = none := by
      rw [common?_shape, hoperands]
      rfl
    exact foretold_mismatch (hnone hcommon)
  | some p => exact hsome p.1 p.2.1 p.2.2 hoperands

/-- The result of a comparison is foretold by the shapes. -/
lemma foretold_comparison {f : Float → Float → Bool}
    (hresult : Shape.result? op v.shape w.shape =
      (Shape.common? v.shape w.shape).map fun _ => .bool) :
    Foretold (onNumbers op v w fun x y _ => .ok (.bool (f x y)))
      (Shape.binary op v.shape w.shape) := by
  refine foretold_onNumbers (fun x y unit hoperands => ?_) (fun hcommon => ?_)
  · rw [Foretold, Shape.binary, hresult, common?_of_operands hoperands]
    rfl
  · rw [hresult, hcommon]
    rfl

end Numeric

/-- The result of an addition is foretold by the shapes. -/
lemma foretold_add (v w : Value) :
    Foretold (v.binary .add w) (Shape.binary .add v.shape w.shape) := by
  have hresult : Shape.result? .add v.shape w.shape =
      if v.isTextual || w.isTextual then some .text else Shape.common? v.shape w.shape := by
    rw [Shape.result?, isTextual_shape, isTextual_shape]
  unfold Value.binary
  by_cases htext : (v.isTextual || w.isTextual) = true
  · rw [if_pos htext] at hresult ⊢
    rw [Foretold, Shape.binary, hresult]
    rfl
  · rw [if_neg htext] at hresult ⊢
    exact foretold_onNumbers (fun _ _ _ h => foretold_ofNumeric h hresult _)
      fun hcommon => hresult.trans hcommon

/-- The result of a multiplication is foretold by the shapes. -/
lemma foretold_mul (v w : Value) :
    Foretold (v.binary .mul w) (Shape.binary .mul v.shape w.shape) := by
  have hresult : Shape.result? .mul v.shape w.shape =
      if areDimensions v w then none else Shape.common? v.shape w.shape := by
    cases v <;> cases w <;> rfl
  unfold Value.binary
  by_cases hdims : areDimensions v w = true
  · rw [if_pos hdims] at hresult
    refine foretold_onNumbers (fun x y unit _ => ?_) fun _ => hresult
    rw [if_pos hdims]
    exact foretold_mismatch hresult
  · rw [if_neg hdims] at hresult
    refine foretold_onNumbers (fun x y unit hoperands => ?_) fun hcommon => hresult.trans hcommon
    rw [if_neg hdims]
    exact foretold_ofNumeric hoperands hresult _

/-- A quotient is foretold if the divisor is not zero. -/
lemma foretold_quotient (hoperands : numericOperands? v w = some (x, y, unit))
    (hy : ¬ (y == 0) = true) :
    Foretold (quotient v w x y unit) (Shape.binary .div v.shape w.shape) := by
  have hcommon := common?_of_operands hoperands
  unfold quotient
  rw [if_neg hy]
  split
  · rename_i x' u y' u'
    have hresult : Shape.result? .div (.dimension u) (.dimension u') = some .number := by
      by_cases hunit : u = u'
      · rw [Shape.result?, if_pos hunit]
      · rw [shape, shape, Shape.common?, if_neg hunit] at hcommon
        cases hcommon
    rw [Foretold, Shape.binary, shape, shape, hresult]
    rfl
  · exact foretold_mismatch rfl
  · rename_i hdims hnumber
    -- neither rule for dimensions applies, so the common shape is asked for
    have hresult : Shape.result? .div v.shape w.shape = Shape.common? v.shape w.shape := by
      cases v with
      | number a =>
        cases w with
        | dimension b u => exact absurd rfl (hnumber a b u rfl)
        | _ => rfl
      | dimension a u =>
        cases w with
        | dimension b u' => exact absurd rfl (hdims a u b u' rfl)
        | _ => rfl
      | _ => rfl
    exact foretold_ofNumeric hoperands hresult _

/-- A division is foretold unless the divisor is zero. -/
lemma divides_or_foretold_div (v w : Value) :
    v.binary .div w = .error .divisionByZero ∨
      Foretold (v.binary .div w) (Shape.binary .div v.shape w.shape) := by
  have hnone :
      Shape.common? v.shape w.shape = none → Shape.result? .div v.shape w.shape = none := by
    intro hcommon
    generalize v.shape = s at hcommon ⊢
    generalize w.shape = t at hcommon ⊢
    unfold Shape.result?
    split
    all_goals simp_all [Shape.common?]
  unfold Value.binary
  by_cases hzero : ∃ x y unit, numericOperands? v w = some (x, y, unit) ∧ (y == 0) = true
  · obtain ⟨x, y, unit, hoperands, hy⟩ := hzero
    left
    simp [onNumbers, hoperands, quotient, hy]
  · right
    refine foretold_onNumbers (fun x y unit hoperands => ?_) hnone
    exact foretold_quotient hoperands fun hy => hzero ⟨x, y, unit, hoperands, hy⟩

/-- The outcome of a binary operation is foretold by the shapes of its operands, unless something is
divided by zero. -/
lemma divides_or_foretold_binary (op : Operator) (v w : Value) :
    v.binary op w = .error .divisionByZero ∨
      Foretold (v.binary op w) (Shape.binary op v.shape w.shape) := by
  cases op with
  | div => exact divides_or_foretold_div v w
  | add => exact .inr (foretold_add v w)
  | mul => exact .inr (foretold_mul v w)
  | sub =>
    exact .inr
      (foretold_onNumbers (fun _ _ _ h => foretold_ofNumeric h rfl _) fun hcommon => hcommon)
  | less => exact .inr (foretold_comparison rfl)
  | greater => exact .inr (foretold_comparison rfl)
  | equal => exact .inr rfl
  | notEqual => exact .inr rfl

/-- The result of a sign is foretold by the shape. -/
lemma foretold_negate (v : Value) : Foretold v.negate v.shape.negate := by cases v <;> rfl

end Value

/-! ### The shape of an expression -/

namespace Expr

open Value (Shape)

/-- The shape of an expression, computed from the shapes of its variables.  Operands are treated
from left to right and the first fault counts. -/
def shape (lookup : String → Option Shape) : Expr → Except EvalError Shape
  | var name span =>
    match lookup name with
    | some s => .ok s
    | none => .error (.raised (.undefinedVariable name) span)
  | number _ unit _ => .ok (.ofUnit unit)
  | text _ _ => .ok .text
  | color _ _ => .ok .color
  | bool _ _ => .ok .bool
  | negate operand span => do
    (← operand.shape lookup).negate.mapError fun m => .raised (.misuse m) span
  | binary op left right span => do
    let s ← left.shape lookup
    let t ← right.shape lookup
    (Shape.binary op s t).mapError fun m => .raised (.misuse m) span
  | selector _ => .ok .text

/-- What an evaluation gives is told by shapes, up to a division by zero: either it stops there, or
its result is of the shape, or it has the error that the shapes tell. -/
def Told (r : Except EvalError Value) (s : Except EvalError Shape) : Prop :=
  (∃ span, r = .error (.raised .divisionByZero span)) ∨ r.map Value.shape = s

/-- A fault of the operation at a place is told by the shapes. -/
lemma told_located {r : Except Value.ArithmeticError Value} {s : Except Value.Misuse Shape}
    (h : r = .error .divisionByZero ∨ Value.Foretold r s) (span : Span) :
    Told (located span r) (s.mapError fun m => .raised (.misuse m) span) := by
  rcases h with rfl | h
  · exact .inl ⟨span, rfl⟩
  · right
    unfold Value.Foretold at h
    cases s with
    | ok shape =>
      cases r with
      | ok v =>
        have hshape : v.shape = shape := Except.ok.inj h
        rw [← hshape]
        rfl
      | error e => cases h
    | error m =>
      cases r with
      | ok v => cases h
      | error e =>
        obtain rfl : e = .misuse m := Except.error.inj h
        rfl

/-- The first fault counts on both sides. -/
lemma Told.bind {r : Except EvalError Value} {s : Except EvalError Shape}
    {f : Value → Except EvalError Value} {g : Shape → Except EvalError Shape} (h : Told r s)
    (hf : ∀ v, Told (f v) (g v.shape)) : Told (r >>= f) (s >>= g) := by
  rcases h with ⟨span, rfl⟩ | rfl
  · exact .inl ⟨span, rfl⟩
  · cases r with
    | error e => exact .inr rfl
    | ok v => exact hf v

/-- The shape of an expression tells its value. -/
lemma told_value (lookup : String → Option Value) (e : Expr) :
    Told (e.value lookup) (e.shape fun name => (lookup name).map Value.shape) := by
  induction e with
  | var name span =>
    right
    unfold value shape
    cases lookup name <;> rfl
  | number x unit span =>
    right
    rw [value, shape, Except.map, Value.shape_ofNumeric]
  | negate operand span ih =>
    unfold value shape
    exact ih.bind fun v => told_located (.inr (Value.foretold_negate v)) span
  | binary op left right span ihleft ihright =>
    unfold value shape
    refine ihleft.bind fun x => ihright.bind fun y => ?_
    exact told_located (Value.divides_or_foretold_binary op x y) span
  | _ => exact .inr rfl

/-- Outcomes that look alike on shapes are both values, of one shape, or are the same error. -/
lemma same_of_map_shape_eq {r r' : Except EvalError Value}
    (h : r.map Value.shape = r'.map Value.shape) :
    (∃ v v', r = .ok v ∧ r' = .ok v' ∧ v.shape = v'.shape) ∨
      ∃ err, r = .error err ∧ r' = .error err := by
  cases r with
  | ok v =>
    cases r' with
    | ok v' => exact .inl ⟨v, v', rfl, rfl, Except.ok.inj h⟩
    | error err' => cases h
  | error err =>
    cases r' with
    | ok v' => cases h
    | error err' =>
      obtain rfl : err = err' := Except.error.inj h
      exact .inr ⟨err, rfl, rfl⟩

/-- The shape of a value does not depend on magnitudes and other contents.  In two environments that
bind the same variables to values of the same shapes, an expression has values of the same shape or
the same error, unless one of the evaluations stops at a division by zero.  What they have in common
is computed from the shapes of the variables. -/
theorem value_of_same_shapes (e : Expr) (lookup lookup' : String → Option Value)
    (hsame : ∀ name, (lookup name).map Value.shape = (lookup' name).map Value.shape)
    (hzero : ∀ span, e.value lookup ≠ .error (.raised .divisionByZero span))
    (hzero' : ∀ span, e.value lookup' ≠ .error (.raised .divisionByZero span)) :
    ((∃ v v', e.value lookup = .ok v ∧ e.value lookup' = .ok v' ∧ v.shape = v'.shape) ∨
      ∃ err, e.value lookup = .error err ∧ e.value lookup' = .error err) ∧
    (e.value lookup).map Value.shape = e.shape (fun name => (lookup name).map Value.shape) ∧
    (e.value lookup').map Value.shape = e.shape (fun name => (lookup name).map Value.shape) := by
  have htold : (e.value lookup).map Value.shape =
      e.shape fun name => (lookup name).map Value.shape :=
    (told_value lookup e).resolve_left fun ⟨span, hspan⟩ => hzero span hspan
  have htold' : (e.value lookup').map Value.shape =
      e.shape fun name => (lookup name).map Value.shape := by
    rw [funext hsame]
    exact (told_value lookup' e).resolve_left fun ⟨span, hspan⟩ => hzero' span hspan
  exact ⟨same_of_map_shape_eq (htold.trans htold'.symm), htold, htold'⟩

/-- A width and a height in different units, and a label. -/
def box (width height : Float) (label name : String) : Option Value :=
  if name = "$width" then some (.dimension width "px")
  else if name = "$height" then some (.dimension height "em")
  else if name = "$label" then some (.text label)
  else none

/-- `-$width * 2`, which has a value. -/
def doubledWidth : Expr :=
  .binary .mul (.negate (.var "$width" ⟨1, 7⟩) ⟨0, 7⟩) (.number 2 none ⟨10, 11⟩) ⟨0, 11⟩

/-- `$label + ($width / $height)`, a division of different units. -/
def aspectLabel : Expr :=
  .binary .add (.var "$label" ⟨0, 6⟩)
    (.binary .div (.var "$width" ⟨10, 16⟩) (.var "$height" ⟨19, 26⟩) ⟨10, 26⟩) ⟨0, 27⟩

/-- Two boxes, one of them with no height: a width has the same unit in both, and the quotient of
different units has the same error, as the divisor is not looked at. -/
theorem value_of_same_shapes_box :
    (∃ v v', doubledWidth.value (box 3 2 "tall") = .ok v ∧
      doubledWidth.value (box 7 0 "flat") = .ok v' ∧
      v.shape = .dimension "px" ∧ v'.shape = .dimension "px") ∧
    ∃ err, aspectLabel.value (box 3 2 "tall") = .error err ∧
      aspectLabel.value (box 7 0 "flat") = .error err ∧
      err.message = "cannot apply `/` to dimension (px) and dimension (em)" ∧
      err.span = ⟨10, 26⟩ := by
  have hsame : ∀ name, (box 3 2 "tall" name).map Value.shape =
      (box 7 0 "flat" name).map Value.shape := by
    intro name
    simp only [box, apply_ite (Option.map Value.shape), Option.map_some, Value.shape]
  constructor
  · have hvalue := value_of_same_shapes doubledWidth (box 3 2 "tall") (box 7 0 "flat") hsame
      (fun _ h => nomatch h) (fun _ h => nomatch h)
    obtain ⟨⟨v, v', hv, hv', hshape⟩ | ⟨err, herr, -⟩, htold, -⟩ := hvalue
    · rw [hv] at htold
      have hpx : v.shape = .dimension "px" := Except.ok.inj htold
      exact ⟨v, v', hv, hv', hpx, hshape ▸ hpx⟩
    · cases herr
  · have hvalue := value_of_same_shapes aspectLabel (box 3 2 "tall") (box 7 0 "flat") hsame
      (fun _ h => nomatch h) (fun _ h => nomatch h)
    obtain ⟨⟨v, v', hv, -⟩ | ⟨err, herr, herr'⟩, -⟩ := hvalue
    · cases hv
    · refine ⟨err, herr, herr', ?_⟩
      cases herr
      decide

end Expr

end StyleSheet

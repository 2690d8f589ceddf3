import StyleSheet.Proofs.Grammar.Rendering
import StyleSheet.Proofs.Layout.Independence
import StyleSheet.Proofs.Scanning.Literals

/-!
# Lists of values

What becomes of a declaration whose values are literals with spaces between them.  A literal after
the first is a value of its own unless it has a minus sign: a minus sign behind a value is read as a
subtraction from it (`fuse`).  So the literals stay a list just if no later one is negative, and
then each of them is put out as it is on its own (`values_of_literals`).
-/

namespace StyleSheet

open Token (Numeral Literal Declaration)

namespace Token

/-! ### Literals as expressions and as output -/

namespace Literal

/-- The expression of a bare word. -/
def wordExpr (text : String) : Expr :=
  if text == "true" then .bool true (.point 0)
  else if text == "false" then .bool false (.point 0)
  else if Color.isName text then .color text (.point 0)
  else .text text (.point 0)

/-- The expression of a literal without its sign. -/
def operand : Literal → Expr
  | number _ n => .number n.magnitude n.unit? (.point 0)
  | color digits _ _ => .color (String.ofList ('#' :: digits)) (.point 0)
  | word name => wordExpr (String.ofList name.chars)
  | quoted quote content _ _ => .text (String.ofList (quote :: (content ++ [quote]))) (.point 0)

def expr (l : Literal) : Expr := if l.isNegative then .negate l.operand (.point 0) else l.operand

/-- A literal in the output: a number with one decimal place, all else as it is written. -/
def shown : Literal → String
  | number negative n =>
    Number.text (if negative then -n.magnitude else n.magnitude) ++ String.ofList n.unit
  | l => String.ofList l.body

/-- The values of literals behind a value: a negative number is subtracted from the value before
it. -/
def fuse (e : Expr) : List Literal → List Expr
  | [] => [e]
  | l :: ls =>
    if l.isNegative then fuse (.binary .sub e l.operand (.point 0)) ls else e :: fuse l.operand ls

/-- Each literal without a sign starts a new value. -/
lemma length_fuse (e : Expr) (ls : List Literal) :
    (fuse e ls).length = ls.countP (fun l => !l.isNegative) + 1 := by
  induction ls generalizing e with
  | nil => rfl
  | cons l ls ih =>
    by_cases h : l.isNegative = true
    · simp [fuse, h, ih]
    · simp [fuse, h, ih]

/-- Without signs each literal is a value. -/
lemma fuse_of_forall {ls : List Literal} (h : ∀ l ∈ ls, l.isNegative = false) (e : Expr) :
    fuse e ls = e :: ls.map expr := by
  induction ls generalizing e with
  | nil => rfl
  | cons l ls ih =>
    obtain ⟨hl, hls⟩ := List.forall_mem_cons.mp h
    simp [fuse, expr, hl, ih hls]

end Literal

namespace Declaration

/-- No literal after the first has a minus sign. -/
def IsList (d : Declaration) : Prop := ∀ l ∈ d.values.tail, l.isNegative = false

/-- The values that are read. -/
def exprs (d : Declaration) : List Expr :=
  match d.values with
  | [] => []
  | l :: ls => Literal.fuse l.expr ls

/-- The declaration in the output. -/
def shown (d : Declaration) : String :=
  d.property.text ++ ":" ++ " ".intercalate (d.values.map Literal.shown) ++ ";"

/-- A declaration has as many values as literals exactly if it is a list. -/
lemma length_exprs_iff (d : Declaration) : d.exprs.length = d.values.length ↔ d.IsList := by
  obtain ⟨l, ls, hvalues⟩ := List.exists_cons_of_ne_nil d.values_ne_nil
  simp only [exprs, hvalues, Literal.length_fuse, IsList, List.length_cons, List.tail_cons,
    Nat.add_right_cancel_iff]
  rw [List.countP_eq_length]
  simp

/-- The values of a list are its literals. -/
lemma exprs_of_isList {d : Declaration} (h : d.IsList) : d.exprs = d.values.map Literal.expr := by
  obtain ⟨l, ls, hvalues⟩ := List.exists_cons_of_ne_nil d.values_ne_nil
  rw [IsList, hvalues] at h
  rw [exprs, hvalues]
  exact Literal.fuse_of_forall h l.expr

end Declaration

/-! ### Tokens as expressions -/

/-- The digits of a numeral are read as its magnitude. -/
lemma Numeral.ofDecimal?_point (n : Numeral) :
    Number.ofDecimal? (n.whole ++ n.point) = some n.magnitude := by
  have htake : (n.whole ++ n.point).takeWhile Char.isDigit = n.whole := by
    rw [List.takeWhile_append_of_pos n.isDigit_whole, point]
    split_ifs <;> simp
  unfold Number.ofDecimal? magnitude
  simp only [htake, List.drop_left]
  by_cases hnil : n.fraction = []
  · simp [point, hnil, n.whole_ne_nil]
  · have hall : n.fraction.all Char.isDigit = true := List.all_eq_true.mpr n.isDigit_fraction
    simp [point, hnil, hall]

/-- The first character that is neither a digit nor a point starts the unit. -/
lemma Numeral.takeWhile_chars (n : Numeral) :
    n.chars.takeWhile (fun c => c.isDigit || c == '.') = n.whole ++ n.point := by
  have hdigits : ∀ c ∈ n.whole ++ n.point, (c.isDigit || c == '.') = true := by
    refine List.forall_mem_append.mpr ⟨fun c hc => by simp [n.isDigit_whole c hc], ?_⟩
    unfold point
    split_ifs
    · exact fun c hc => absurd hc List.not_mem_nil
    · refine List.forall_mem_cons.mpr ⟨rfl, fun c hc => by simp [n.isDigit_fraction c hc]⟩
  have hunit : n.unit.takeWhile (fun c => c.isDigit || c == '.') = [] := by
    have hhead := n.headIs_unit (⟨rfl, rfl, rfl⟩ : EndsLiteral [])
    rw [List.append_nil] at hhead
    cases hcs : n.unit with
    | nil => rfl
    | cons c cs =>
      rw [hcs] at hhead
      exact List.takeWhile_cons_of_neg (Bool.eq_false_iff.mp hhead)
  rw [chars, ← List.append_assoc, List.takeWhile_append_of_pos hdigits, hunit, List.append_nil]

/-- Behind the digits of a numeral there is its unit. -/
lemma Numeral.drop_chars (n : Numeral) : n.chars.drop (n.whole ++ n.point).length = n.unit := by
  rw [chars, ← List.append_assoc, List.drop_left]

/-- The text of a number is cut in front of its unit. -/
lemma Numeral.splitWith_chars {α : Type} (read : List Char → Option α) (n : Numeral) :
    Sheet.splitWith read (String.ofList n.chars) =
      (read (n.whole ++ n.point)).map (·, n.unit?) := by
  unfold Sheet.splitWith unit?
  simp only [String.toList_ofList, n.takeWhile_chars, n.drop_chars]
  by_cases hnil : n.unit = []
  · simp [hnil]
  · simp [hnil]

/-- The text of a number is split into its magnitude and its unit. -/
lemma Numeral.splitNumber?_chars (n : Numeral) :
    Sheet.splitNumber? (String.ofList n.chars) = some (n.magnitude, n.unit?) := by
  rw [Sheet.splitNumber?, n.splitWith_chars, n.ofDecimal?_point, Option.map_some]

/-- The token of a literal stands for its expression. -/
lemma Literal.leaf_operand (l : Literal) {t : Token} (hkind : t.kind = l.kind)
    (htext : t.text = String.ofList l.body) : Sheet.Leaf l.operand t := by
  cases l with
  | number negative n =>
    refine .number hkind ?_
    rw [htext]
    exact n.splitNumber?_chars
  | color digits _ _ =>
    have htext : t.text = String.ofList ('#' :: digits) := htext
    rw [operand, ← htext]
    exact .color hkind
  | word name =>
    have htext : t.text = String.ofList name.chars := htext
    have hkind : t.kind = wordKind t.text := by rw [hkind, kind, htext]
    rw [operand, ← htext]
    unfold wordKind at hkind
    unfold wordExpr
    split_ifs at hkind ⊢
    · exact .litTrue hkind
    · exact .litFalse hkind
    · exact .color hkind
    · exact .text hkind
  | quoted quote content _ _ =>
    have htext : t.text = String.ofList (quote :: (content ++ [quote])) := htext
    rw [operand, ← htext]
    exact .text hkind

end Token

/-! ### Reading a list of literals -/

namespace Sheet

open Reading
open Window (Yields)

variable {σ : Type} [Window σ] {s rest last : σ}

/-- The tokens of a literal: one for it, and one for its sign if it has one. -/
lemma exists_of_tokens (l : Literal) {us : List Token} {ps : List (Token.Kind × String)}
    (h : us.map (fun t => (t.kind, t.text)) = l.tokens ++ ps) :
    ∃ signs t vs, us = signs ++ t :: vs ∧ vs.map (fun t => (t.kind, t.text)) = ps ∧
      t.kind = l.kind ∧ Leaf l.operand t ∧
      if l.isNegative then ∃ sign : Token, signs = [sign] ∧ sign.kind = .minus else signs = [] := by
  by_cases hnegative : l.isNegative = true
  · simp only [Literal.tokens, hnegative, if_true, List.cons_append, List.nil_append] at h ⊢
    obtain ⟨sign, us, rfl, hsign, h⟩ := List.map_eq_cons_iff.mp h
    obtain ⟨t, vs, rfl, ht, hvs⟩ := List.map_eq_cons_iff.mp h
    obtain ⟨hkind, htext⟩ := Prod.mk.inj ht
    exact ⟨[sign], t, vs, rfl, hvs, hkind, l.leaf_operand hkind htext, sign, rfl,
      (Prod.mk.inj hsign).1⟩
  · simp only [Literal.tokens, hnegative] at h ⊢
    obtain ⟨t, vs, rfl, ht, hvs⟩ := List.map_eq_cons_iff.mp h
    obtain ⟨hkind, htext⟩ := Prod.mk.inj ht
    exact ⟨[], t, vs, rfl, hvs, hkind, l.leaf_operand hkind htext, rfl⟩

/-- The tokens of a literal render it with its sign. -/
lemma exists_rendering_of_tokens (l : Literal) {us : List Token} {ps : List (Token.Kind × String)}
    (h : us.map (fun t => (t.kind, t.text)) = l.tokens ++ ps) :
    ∃ ts vs, us = ts ++ vs ∧ vs.map (fun t => (t.kind, t.text)) = ps ∧
      Rendering none l.expr ts := by
  obtain ⟨signs, t, vs, rfl, hvs, -, hleaf, hsigns⟩ := exists_of_tokens l h
  refine ⟨signs ++ [t], vs, by simp, hvs, ?_⟩
  unfold Literal.expr
  by_cases hnegative : l.isNegative = true
  · rw [if_pos hnegative] at hsigns ⊢
    obtain ⟨sign, rfl, hsign⟩ := hsigns
    exact .negate hsign (.leaf hleaf)
  · rw [if_neg hnegative] at hsigns ⊢
    subst hsigns
    exact .leaf hleaf

/-- A literal without a sign is no operator, and an expression can start with it. -/
lemma startsOperand_literal (l : Literal) :
    Operator.ofKind? l.kind = none ∧ Form.StartsOperand l.kind := by
  have hkinds : ∀ k ∈ [Token.Kind.number, .color, .string, .litTrue, .litFalse],
      Operator.ofKind? k = none ∧ Form.StartsOperand k := by decide
  exact hkinds l.kind l.kind_mem

/-- No value follows at a semicolon. -/
lemma value?_of_semicolon (h : (Window.current s).kind = .semicolon) : value? s = .ok none s := by
  rw [value?, bind_current, h]
  rfl

/-- Behind the tokens of an expression literals are read up to the semicolon: a negative one goes on
with the expression, and any other one starts the next value. -/
lemma values_of_fuse {ls : List Literal} {top : Option Operator} {e : Expr} {ts us : List Token}
    (he : Rendering top e ts) (htop : ∀ op ∈ top, op = .sub)
    (hus : us.map (fun t => (t.kind, t.text)) = ls.flatMap Literal.tokens)
    (hs : Yields s (ts ++ us) last) (hlast : (Window.current last).kind = .semicolon) :
    ∃ first mid others, expression s = .ok first mid ∧ others.length ≤ Window.size mid ∧
      (∀ n, others.length < n → repeatUpTo value? n mid = .ok others last) ∧
      (first :: others).map (Expr.mapSpans Span.forget) =
        (Literal.fuse e ls).map (Expr.mapSpans Span.forget) := by
  induction ls generalizing top e ts us s with
  | nil =>
    obtain rfl : us = [] := List.map_eq_nil_iff.mp hus
    rw [List.append_nil] at hs
    obtain ⟨first, hfirst, hsame⟩ := expression_of_yields he hs (by rw [hlast]; rfl)
    refine ⟨first, last, [], hfirst, Nat.zero_le _, fun n hn => ?_, by simp [Literal.fuse, hsame]⟩
    obtain ⟨n, rfl⟩ : ∃ k, n = k + 1 := ⟨n - 1, by simp at hn; omega⟩
    exact bind_of_ok (value?_of_semicolon hlast)
  | cons l ls ih =>
    obtain ⟨signs, t, vs, rfl, hvs, hkind, hleaf, hsigns⟩ := exists_of_tokens l hus
    by_cases hnegative : l.isNegative = true
    · -- The sign is an operator, and what it is applied to is the expression so far.
      rw [if_pos hnegative] at hsigns
      obtain ⟨sign, rfl, hsign⟩ := hsigns
      have hop : Operator.ofKind? sign.kind = some .sub := by
        rw [hsign]
        rfl
      have hbelow : ∀ inner ∈ top, Operator.sub.precedence.rank ≤ inner.precedence.rank := by
        intro inner hinner
        rw [htop inner hinner]
      have hbinary : Rendering (some .sub) (.binary .sub e l.operand (.point 0))
          (ts ++ sign :: [t]) := .binary hop he hbelow (.leaf hleaf) nofun
      have hnext := ih hbinary (fun op hop => (Option.some.inj hop).symm) hvs (by simpa using hs)
      simpa [Literal.fuse, hnegative] using hnext
    · -- a literal without a sign starts an operand, so the expression so far ends before it
      rw [if_neg hnegative] at hsigns
      subst hsigns
      obtain ⟨mid, hts, hmid⟩ := hs.append
      have hcurrent : (Window.current mid).kind = l.kind := by rw [hmid.1, hkind]
      obtain ⟨first, hfirst, hsame⟩ :=
        expression_of_yields he hts (by rw [hcurrent, (startsOperand_literal l).1])
      obtain ⟨second, after, others, hsecond, hlength, hothers, hmap⟩ :=
        ih (.leaf hleaf) nofun hvs hmid
      have hbelow := size_lt_of_expression hsecond
      have hvalue : value? mid = .ok (some second) after := by
        rw [value?_of_startsOperand (by rw [hcurrent]; exact (startsOperand_literal l).2),
          bind_of_ok hsecond]
        rfl
      refine ⟨first, mid, second :: others, hfirst, ?_, fun n hn => ?_, ?_⟩
      · exact Nat.lt_of_le_of_lt hlength hbelow
      · obtain ⟨n, rfl⟩ : ∃ k, n = k + 1 := ⟨n - 1, by simp at hn; omega⟩
        have hmore := hothers n (by simpa using hn)
        rw [repeatUpTo, bind_of_ok hvalue]
        exact bind_of_ok hmore
      · rw [List.map_cons, hmap, Literal.fuse, if_neg hnegative, List.map_cons, hsame]

/-- The second of the tokens that are read is the one ahead. -/
lemma ahead_eq_of_yields {t u : Token} {ts : List Token} (h : Yields s (t :: u :: ts) rest) :
    Window.ahead s = u := by
  obtain ⟨-, next, hnext, hcurrent, -⟩ := h
  rw [← hcurrent, Window.current_of_advance hnext]

/-- A token that a window yields first is taken. -/
lemma eat_of_yields {t : Token} {k : Token.Kind} {ts : List Token} (h : Yields s (t :: ts) rest)
    (hk : t.kind = k) : ∃ next, eat k s = .ok true next ∧ Yields next ts rest := by
  obtain ⟨next, hadvance, hnext⟩ := h.exists_advance
  refine ⟨next, ?_, hnext⟩
  rw [eat_of_eq (by rw [h.1, hk])]
  exact bind_of_ok hadvance

/-- A token that a window yields first is taken where it is expected. -/
lemma expect_of_yields {t : Token} {k : Token.Kind} {ts : List Token} (h : Yields s (t :: ts) rest)
    (hk : t.kind = k) : ∃ next, expect k s = .ok t next ∧ Yields next ts rest := by
  obtain ⟨next, hadvance, hnext⟩ := h.exists_advance
  refine ⟨next, ?_, hnext⟩
  rw [expect, bind_check, decide_eq_true (by rw [h.1, hk])]
  exact hadvance

/-- The statement has the property of the declaration and, up to spans, the values that its
literals make up. -/
structure ReadAs (d : Declaration) (property : Token) (values : List Expr) : Prop where
  property : property.text = d.property.text
  values : values.map (Expr.mapSpans Span.forget) = d.exprs.map (Expr.mapSpans Span.forget)

/-- Wherever the tokens of a declaration of literals stand, it is read with the values that its
literals make up. -/
lemma statement_of_declaration (d : Declaration) (inner : Span → Reading σ (List Stmt))
    {ts : List Token} (hts : ts.map (fun t => (t.kind, t.text)) = d.tokens)
    (hs : Yields s ts rest) :
    ∃ property values span, ReadAs d property values ∧
      statement inner s = .ok (some (.declare property values false span)) rest := by
  obtain ⟨l, ls, hvalues⟩ := List.exists_cons_of_ne_nil d.values_ne_nil
  rw [Declaration.tokens, hvalues, List.flatMap_cons, List.append_assoc] at hts
  obtain ⟨property, ts, rfl, hproperty, hts⟩ := List.map_eq_cons_iff.mp hts
  obtain ⟨colon, ts, rfl, hcolon, hts⟩ := List.map_eq_cons_iff.mp hts
  obtain ⟨signed, ts, rfl, hts, hfirst⟩ := exists_rendering_of_tokens l hts
  obtain ⟨us, semicolons, rfl, hus, hsemicolons⟩ := List.map_eq_append_iff.mp hts
  obtain ⟨semicolon, _, rfl, hsemicolon, hnil⟩ := List.map_eq_cons_iff.mp hsemicolons
  obtain rfl := List.map_eq_nil_iff.mp hnil
  -- each part of the declaration is read from the window that the part before has left
  have hahead := ahead_eq_of_yields hs
  have hcurrent := hs.1
  obtain ⟨s₁, hadvance, hs₁⟩ := hs.exists_advance
  obtain ⟨s₂, hexpect, hs₂⟩ := expect_of_yields hs₁ (Prod.mk.inj hcolon).1
  obtain ⟨last, hs₂, hlast⟩ : ∃ last, Yields s₂ (signed ++ us) last ∧
      Yields last [semicolon] rest := by
    refine Yields.append ?_
    simpa using hs₂
  have hend : (Window.current last).kind = .semicolon := by rw [hlast.1, (Prod.mk.inj hsemicolon).1]
  obtain ⟨first, mid, others, hread, hlength, hothers, hmap⟩ :=
    values_of_fuse hfirst (fun o ho => absurd ho (Option.not_mem_none o)) hus hs₂ hend
  obtain ⟨after, heat, hafter⟩ := eat_of_yields hlast (Prod.mk.inj hsemicolon).1
  obtain rfl : after = rest := hafter
  have hmany : many value? mid = .ok others last := hothers _ (Nat.lt_succ_of_le hlength)
  have himportant : eat (.keyword .bangImportant) last = .ok false last :=
    eat_of_ne (by rw [hend]; decide)
  have hfinish : endStatement last = .ok () after := by
    rw [endStatement, bind_of_ok heat]
    rfl
  have hdeclaration : declaration s = .ok (.declare property (first :: others) false
      (property.span.merge (Window.before last))) after := by
    rw [declaration, bind_of_ok hadvance, bind_of_ok hexpect, bind_of_ok hread, bind_of_ok hmany,
      bind_of_ok himportant]
    exact bind_of_ok hfinish
  refine ⟨property, first :: others, property.span.merge (Window.before last),
    ⟨(Prod.mk.inj hproperty).2, by rw [hmap, Declaration.exprs, hvalues]⟩, ?_⟩
  rw [statement, bind_window, hcurrent, (Prod.mk.inj hproperty).1, hahead]
  dsimp only
  rw [if_pos (Prod.mk.inj hcolon).1]
  exact bind_of_ok hdeclaration

/-- The statements are the declarations, one for one. -/
def AllReadAs : List Declaration → List Stmt → Prop :=
  List.Forall₂ fun d stmt => ∃ property values span,
    ReadAs d property values ∧ stmt = .declare property values false span

/-- Declarations are no rulesets. -/
lemma AllReadAs.not_isRuleset {ds : List Declaration} {body : List Stmt} (h : AllReadAs ds body) :
    ∀ stmt ∈ body, stmt.isRuleset = false := by
  induction h with
  | nil => exact fun stmt hstmt => absurd hstmt List.not_mem_nil
  | cons first _ ih =>
    obtain ⟨property, values, span, -, rfl⟩ := first
    exact List.forall_mem_cons.mpr ⟨rfl, ih⟩

/-- Between braces declarations of literals are read one after another. -/
lemma statementsUpTo_declarations {ds : List Declaration} {n : Nat} (hn : ds.length < n)
    (opened : Span) {ts : List Token} (hts : ts.map (fun t => (t.kind, t.text)) =
      ds.flatMap Declaration.tokens ++ [(.rightBrace, "\x7d")]) (hs : Yields s ts rest) :
    ∃ body, AllReadAs ds body ∧ statementsUpTo n (some opened) s = .ok body rest := by
  induction ds generalizing n ts s with
  | nil =>
    obtain ⟨n, rfl⟩ : ∃ k, n = k + 1 := ⟨n - 1, by simp at hn; omega⟩
    obtain ⟨brace, _, rfl, hbrace, hnil⟩ := List.map_eq_cons_iff.mp hts
    obtain rfl := List.map_eq_nil_iff.mp hnil
    obtain ⟨next, heat, hnext⟩ := eat_of_yields hs (Prod.mk.inj hbrace).1
    obtain rfl : next = rest := hnext
    have hover : isOver (some opened) s = .ok true next := by
      rw [isOver, bind_of_ok heat]
      rfl
    refine ⟨[], .nil, ?_⟩
    rw [statementsUpTo, bind_of_ok hover]
    rfl
  | cons d ds ih =>
    obtain ⟨n, rfl⟩ : ∃ k, n = k + 1 := ⟨n - 1, by simp at hn; omega⟩
    rw [List.flatMap_cons, List.append_assoc] at hts
    obtain ⟨us, vs, rfl, hus, hvs⟩ := List.map_eq_append_iff.mp hts
    obtain ⟨mid, hmid, hothers⟩ := hs.append
    have hkind : (Window.current s).kind = .property := by
      obtain ⟨property, us, rfl, hproperty, -⟩ := List.map_eq_cons_iff.mp hus
      rw [hmid.1]
      exact (Prod.mk.inj hproperty).1
    have hover : isOver (some opened) s = .ok false s := by
      rw [isOver, bind_of_ok (eat_of_ne (by rw [hkind]; decide))]
      change (window >>= _) s = _
      rw [bind_window, Window.isAtEnd, hkind]
      rfl
    obtain ⟨property, values, span, hread, hstatement⟩ :=
      statement_of_declaration d (fun opened => statementsUpTo n (some opened)) hus hmid
    obtain ⟨body, hbody, hmore⟩ := ih (Nat.lt_of_succ_lt_succ hn) hvs hothers
    refine ⟨_ :: body, .cons ⟨property, values, span, hread, rfl⟩ hbody, ?_⟩
    rw [statementsUpTo, bind_of_ok hover]
    change (statement _ >>= _) s = _
    rw [bind_of_ok hstatement, bind_of_ok hmore]
    rfl

/-- A type selector before a brace is the whole header. -/
lemma many_headerToken? {t brace : Token} {ts : List Token} (ht : t.kind = .typeSelector)
    (hbrace : brace.kind = .leftBrace) (hs : Yields s (t :: brace :: ts) rest) :
    ∃ next, many headerToken? s = .ok [t] next ∧ Yields next (brace :: ts) rest := by
  obtain ⟨next, hadvance, hnext⟩ := hs.exists_advance
  have hkind : (Window.current s).kind = .typeSelector := by rw [hs.1, ht]
  have hfirst : headerToken? s = .ok (some t) next := by
    rw [headerToken?, bind_current, hkind]
    exact bind_of_ok hadvance
  have hstop : headerToken? next = .ok none next := by
    rw [headerToken?, bind_current, hnext.1, hbrace]
    rfl
  obtain ⟨n, hn⟩ : ∃ n, Window.size s = n + 1 := by
    obtain ⟨-, after, hafter, -⟩ := hs
    have hlt := Window.size_lt_of_advance (by rw [hkind]; decide) hafter
    exact Nat.exists_eq_add_one.mpr (Nat.zero_lt_of_lt hlt)
  have hnone : repeatUpTo headerToken? (n + 1) next = .ok [] next := by
    rw [repeatUpTo, bind_of_ok hstop]
    rfl
  refine ⟨next, ?_, hnext⟩
  rw [many, hn, repeatUpTo, bind_of_ok hfirst]
  exact bind_of_ok hnone

/-- A ruleset with declarations of literals is read as one. -/
lemma statement_of_ruleset {name : Token.Header.Name} {ds : List Declaration} {n : Nat}
    (hn : ds.length < n) {ts : List Token}
    (hts : ts.map (fun t => (t.kind, t.text)) = Token.rulesetTokens name ds)
    (hs : Yields s ts rest) :
    ∃ t body span, t.kind = .typeSelector ∧ t.text = String.ofList name.chars ∧ AllReadAs ds body ∧
      statement (fun opened => statementsUpTo n (some opened)) s =
        .ok (some (.ruleset [t] body [] span)) rest := by
  obtain ⟨t, ts, rfl, ht, hts⟩ := List.map_eq_cons_iff.mp hts
  obtain ⟨brace, ts, rfl, hbrace, hts⟩ := List.map_eq_cons_iff.mp hts
  obtain ⟨hkind, htext⟩ := Prod.mk.inj ht
  obtain ⟨s₁, hheader, hs₁⟩ := many_headerToken? hkind (Prod.mk.inj hbrace).1 hs
  obtain ⟨s₂, hopen, hs₂⟩ := expect_of_yields hs₁ (Prod.mk.inj hbrace).1
  obtain ⟨body, hbody, hinner⟩ := statementsUpTo_declarations hn brace.span hts hs₂
  have hblock : block (fun opened => statementsUpTo n (some opened)) s₁ =
      .ok ⟨body, brace.span.merge (Window.before rest)⟩ rest := by
    rw [block, bind_of_ok hopen, bind_of_ok hinner]
    rfl
  have hrules : body.filter (!·.isRuleset) = body :=
    List.filter_eq_self.mpr fun stmt hstmt => by simp [hbody.not_isRuleset stmt hstmt]
  have hchildren : body.filter (·.isRuleset) = [] :=
    List.filter_eq_nil_iff.mpr fun stmt hstmt => by simp [hbody.not_isRuleset stmt hstmt]
  have hruleset : ruleset (fun opened => statementsUpTo n (some opened)) s =
      .ok (.ruleset [t] body [] (t.span.merge (Window.before rest))) rest := by
    rw [ruleset, bind_current, hs.1, bind_of_ok hheader, bind_of_ok hblock, hrules, hchildren]
    rfl
  refine ⟨t, body, t.span.merge (Window.before rest), hkind, htext, hbody, ?_⟩
  rw [statement, bind_window, hs.1, hkind]
  exact bind_of_ok hruleset

/-- A ruleset has more tokens than declarations. -/
lemma length_lt_rulesetTokens (name : Token.Header.Name) (ds : List Declaration) :
    ds.length < (Token.rulesetTokens name ds).length := by
  have hle : ds.length ≤ (ds.flatMap Declaration.tokens).length := by
    induction ds with
    | nil => exact Nat.le_refl _
    | cons d ds ih =>
      rw [List.flatMap_cons, List.length_append, Declaration.tokens]
      simp only [List.length_cons]
      omega
  simp only [Token.rulesetTokens, List.length_cons, List.length_append]
  omega

/-- A text whose tokens are read as one statement is a sheet of that statement. -/
lemma ofText_of_statement {table : Keyword.Table} {source : String} {ts : List Token}
    {before stop : Span} {stmt : Stmt} (htokenize : Token.tokenize table source = ⟨ts, .ok stop⟩)
    (hne : ts ≠ []) (hstatement : statement (fun opened => statementsUpTo ts.length (some opened))
      (Cursor.on ⟨0, 0⟩ stop ts) = .ok (some stmt) (Cursor.on before stop [])) :
    ofText table source = .ok [stmt] := by
  have hreadable := Token.readable_tokenize table source
  rw [htokenize] at hreadable
  rw [ofText_eq_ofTokens, htokenize, ofTokens_eq_ofWindow rfl]
  refine ofWindow_eq_ok.mpr ⟨Cursor.on before stop [], ?_⟩
  obtain ⟨u, us, rfl⟩ := List.exists_cons_of_ne_nil hne
  have hover : isOver none (Cursor.on ⟨0, 0⟩ stop (u :: us)) =
      .ok false (Cursor.on ⟨0, 0⟩ stop (u :: us)) := by
    rw [isOver, bind_window, Cursor.isAtEnd_on_cons hreadable]
    rfl
  have hdone : statementsUpTo (u :: us).length none (Cursor.on before stop []) =
      .ok [] (Cursor.on before stop []) := rfl
  rw [Cursor.size_on hreadable, statementsUpTo, bind_of_ok hover]
  change (statement _ >>= _) _ = _
  rw [bind_of_ok hstatement, bind_of_ok hdone]
  rfl

/-- The text of such a ruleset is a sheet with the ruleset as its only statement. -/
lemma exists_ofText_ruleset (table : Keyword.Table) {name : Token.Header.Name}
    (htrue : String.ofList name.chars ≠ "true") (hfalse : String.ofList name.chars ≠ "false")
    (ds : List Declaration) :
    ∃ t body span, t.kind = .typeSelector ∧ t.text = String.ofList name.chars ∧ AllReadAs ds body ∧
      ofText table (String.ofList (Token.rulesetChars name ds)) =
        .ok [.ruleset [t] body [] span] := by
  obtain ⟨ts, stop, hts, htokenize⟩ :=
    (Token.reads_ruleset table htrue hfalse ds []).exists_tokenize
  have hlength : ds.length < ts.length := by
    have hmap := congrArg List.length hts
    rw [List.length_map] at hmap
    rw [hmap]
    exact length_lt_rulesetTokens name ds
  obtain ⟨before, hyields⟩ := Cursor.yields_on_append ⟨0, 0⟩ stop ts []
  rw [List.append_nil] at hyields
  obtain ⟨t, body, span, hkind, htext, hbody, hstatement⟩ :=
    statement_of_ruleset hlength hts hyields
  have hne : ts ≠ [] := List.ne_nil_of_length_pos (Nat.zero_lt_of_lt hlength)
  exact ⟨t, body, span, hkind, htext, hbody, ofText_of_statement htokenize hne hstatement⟩

end Sheet

/-! ### Evaluating a list of literals -/

namespace Token.Literal

/-- A numeral is shown as its number and its unit. -/
lemma shown_ofNumeric (n : Numeral) (x : Float) :
    (Value.ofNumeric x n.unit?).shown = Number.text x ++ String.ofList n.unit := by
  unfold Numeral.unit?
  split_ifs with h
  · simp [Value.ofNumeric, Value.shown, h]
  · rfl

/-- A literal has a value, and that is shown like the literal. -/
lemma exists_value_expr (lookup : String → Option Value) (l : Literal) :
    ∃ v, l.expr.value lookup = .ok v ∧ v.shown = l.shown := by
  cases l with
  | number negative n =>
    refine ⟨.ofNumeric (if negative then -n.magnitude else n.magnitude) n.unit?, ?_,
      shown_ofNumeric n _⟩
    cases negative with
    | false => rfl
    | true =>
      change Expr.located _ (Value.negate (.ofNumeric n.magnitude n.unit?)) = _
      cases n.unit? with
      | none => rfl
      | some unit => rfl
  | color digits => exact ⟨_, rfl, rfl⟩
  | word name =>
    change ∃ v, (wordExpr (String.ofList name.chars)).value lookup = .ok v ∧
      v.shown = String.ofList name.chars
    unfold wordExpr
    split_ifs with htrue hfalse
    · exact ⟨.bool true, rfl, (beq_iff_eq.mp htrue).symm⟩
    · exact ⟨.bool false, rfl, (beq_iff_eq.mp hfalse).symm⟩
    · exact ⟨_, rfl, rfl⟩
    · exact ⟨_, rfl, rfl⟩
  | quoted => exact ⟨_, rfl, rfl⟩

/-- Literals have values, which are shown as the literals are. -/
lemma exists_values_map_expr (lookup : String → Option Value) (ls : List Literal) :
    ∃ vs, Expr.values lookup (ls.map expr) = .ok vs ∧ vs.map Value.shown = ls.map shown := by
  induction ls with
  | nil => exact ⟨[], rfl, rfl⟩
  | cons l ls ih =>
    obtain ⟨v, hv, hshown⟩ := l.exists_value_expr lookup
    obtain ⟨vs, hvs, hothers⟩ := ih
    refine ⟨v :: vs, ?_, by simp [hshown, hothers]⟩
    rw [List.map_cons, Expr.values, hv, hvs]
    rfl

end Token.Literal

namespace Evaluation

/-- A computation goes on after a success. -/
lemma bind_of_eq_ok {α β : Type} {x : Evaluation α} {f : α → Evaluation β} {s t : State} {a : α}
    (h : x s = (.ok a, t)) : (x >>= f) s = f a t := by
  change Evaluation.bind x f s = _
  rw [Evaluation.bind, h]

/-- In any ruleset and any state a declaration that is read from a list of literals is put out with
each of them as it is shown. -/
lemma run_declaration {d : Declaration} (hd : d.IsList) (setting : Setting)
    (deeper : Enclosing → List Stmt → Evaluation Output) (selectors : List String)
    {property : Token} {values : List Expr} (h : Sheet.ReadAs d property values) (span : Span)
    (s : State) :
    run setting deeper (some selectors) (.declare property values false span) s =
      (.ok (.declaration d.shown), s) := by
  obtain ⟨vs, hvs, hshown⟩ := Literal.exists_values_map_expr s.env.lookup d.values
  have hread : Expr.values s.env.lookup values = .ok vs := by
    have hforget := Expr.values_forget s.env.lookup values
    rw [h.values, Declaration.exprs_of_isList hd, Expr.values_forget, hvs] at hforget
    cases hread : Expr.values s.env.lookup values with
    | ok us =>
      rw [hread] at hforget
      exact hforget.symm
    | error e =>
      rw [hread] at hforget
      cases hforget
  have htext : Output.declarationText property.text (vs.map Value.shown) false = d.shown := by
    simp [Output.declarationText, Declaration.shown, h.property, hshown]
  have hvaluesOf : valuesOf values s = (.ok vs, s) := by
    change ofExcept (Expr.values s.env.lookup values) s = _
    rw [hread]
    rfl
  rw [run, declare, if_neg (by simp), ← htext]
  exact bind_of_eq_ok hvaluesOf

/-- Running no statements does nothing. -/
lemma runAll_nil (setting : Setting) (deeper : Enclosing → List Stmt → Evaluation Output)
    (enclosing : Enclosing) (s : State) :
    runAll setting deeper enclosing [] s = (.ok .empty, s) := by
  rw [runAll]
  rfl

/-- Declarations that are read from lists of literals are put out one after another. -/
lemma runAll_declarations {ds : List Declaration} (hds : ∀ d ∈ ds, d.IsList) {body : List Stmt}
    (hbody : Sheet.AllReadAs ds body) (setting : Setting)
    (deeper : Enclosing → List Stmt → Evaluation Output) (selectors : List String) (s : State) :
    runAll setting deeper (some selectors) body s = (.ok ⟨ds.map Declaration.shown, []⟩, s) := by
  induction hbody with
  | nil => rfl
  | cons first _ ih =>
    obtain ⟨hd, hds⟩ := List.forall_mem_cons.mp hds
    obtain ⟨property, values, span, hread, rfl⟩ := first
    rw [runAll, bind_of_eq_ok (run_declaration hd setting deeper selectors hread span s),
      bind_of_eq_ok (ih hds)]
    rfl

/-- A ruleset with a type selector and such declarations is one block. -/
lemma run_ruleset {ds : List Declaration} (hds : ∀ d ∈ ds, d.IsList) {t : Token}
    (ht : t.kind = .typeSelector) {body : List Stmt} (hbody : Sheet.AllReadAs ds body)
    (setting : Setting) (deeper : Enclosing → List Stmt → Evaluation Output) (span : Span)
    (s : State) :
    (run setting deeper none (.ruleset [t] body [] span) s).1 =
      .ok ⟨[], [t.text ++ "\x7b" ++ String.join (ds.map Declaration.shown) ++ "\x7d"]⟩ := by
  have hcompose : Selector.compose none [t] = .ok [t.text] := by
    simp [Selector.compose, Selector.isParentReference, Selector.groups, splitWhere,
      Selector.isComma, Selector.render, Selector.tokenText, ht]
  have hselectors : selectorsOf none [t] span s = (.ok [t.text], s) := by
    rw [selectorsOf, hcompose]
    rfl
  have hinner (s : State) : (do
      let own ← runAll setting deeper (some [t.text]) body
      let nested ← runAll setting deeper (some [t.text]) []
      return own ++ nested : Evaluation Output) s = (.ok ⟨ds.map Declaration.shown, []⟩, s) := by
    rw [bind_of_eq_ok (runAll_declarations hds hbody setting deeper [t.text] s),
      bind_of_eq_ok (runAll_nil setting deeper _ s), Output.append_empty]
    rfl
  have hwithin : within (·.push) (do
      let own ← runAll setting deeper (some [t.text]) body
      let nested ← runAll setting deeper (some [t.text]) []
      return own ++ nested) s =
        (.ok ⟨ds.map Declaration.shown, []⟩, { s with env := s.env.push.pop }) := by
    rw [within, hinner]
  rw [run, bind_of_eq_ok hselectors, bind_of_eq_ok hwithin]
  change Outcome.ok (Output.close ⟨ds.map Declaration.shown, []⟩ [t.text]) = _
  simp [Output.close, Output.block]

end Evaluation

namespace Build

open Sheet Evaluation

/-- A ruleset with lists of literals is built into the same ruleset, with each literal as it is
shown. -/
lemma ofText_ruleset (setting : Setting) {name : Token.Header.Name}
    (htrue : String.ofList name.chars ≠ "true") (hfalse : String.ofList name.chars ≠ "false")
    {ds : List Declaration} (hds : ∀ d ∈ ds, d.IsList) :
    ofText setting (String.ofList (Token.rulesetChars name ds)) =
      .ok (String.ofList name.chars ++ "\x7b" ++ String.join (ds.map Declaration.shown) ++
        "\x7d") := by
  obtain ⟨t, body, span, hkind, htext, hbody, hread⟩ :=
    exists_ofText_ruleset setting.keywords htrue hfalse ds
  have hrun := run_ruleset hds hkind hbody setting (runUpTo setting setting.maxDepth) span .initial
  rcases hstep : run setting (runUpTo setting setting.maxDepth) none (.ruleset [t] body [] span)
    .initial with ⟨out, after⟩
  rw [hstep, htext] at hrun
  obtain rfl := hrun
  have hall : runAll setting (runUpTo setting setting.maxDepth) none [.ruleset [t] body [] span]
      .initial = (.ok ⟨[], [String.ofList name.chars ++ "\x7b" ++
        String.join (ds.map Declaration.shown) ++ "\x7d"]⟩, after) := by
    rw [runAll, bind_of_eq_ok hstep, bind_of_eq_ok (runAll_nil setting _ none after)]
    rfl
  rw [ofText, hread]
  change ofSheet setting _ = _
  rw [ofSheet_eq, hall]
  simp

/-- Where a declaration can start, a declaration of literals is scanned into its tokens, whatever
follows it.  Wherever these stand, it is read as a declaration, and it has as many values as there
are literals just if no literal after the first has a minus sign.  If so, it is put out in every
ruleset and every state with each literal as it is shown, and single spaces between them.  A
ruleset of such declarations is built accordingly; with a single literal this tells what becomes of
the literal on its own. -/
theorem values_of_literals :
    (∀ (d : Declaration) (table : Keyword.Table) (previous : Option Token.Kind) (rest : List Char),
      Token.declarationMayFollow previous = true →
        Token.Scanner.Reads table previous d.chars d.tokens (some .semicolon) rest) ∧
    (∀ (σ : Type) [Window σ] (d : Declaration) (inner : Span → Reading σ (List Stmt)) (s rest : σ)
      (ts : List Token), ts.map (fun t => (t.kind, t.text)) = d.tokens → Window.Yields s ts rest →
        ∃ property values span,
          statement inner s = .ok (some (.declare property values false span)) rest ∧
          (values.length = d.values.length ↔ d.IsList) ∧
          (d.IsList → ∀ setting deeper selectors state,
            run setting deeper (some selectors) (.declare property values false span) state =
              (.ok (.declaration d.shown), state))) ∧
    ∀ (setting : Setting) (name : Token.Header.Name) (ds : List Declaration),
      String.ofList name.chars ≠ "true" → String.ofList name.chars ≠ "false" →
        (∀ d ∈ ds, d.IsList) →
          ofText setting (String.ofList (Token.rulesetChars name ds)) =
            .ok (String.ofList name.chars ++ "\x7b" ++ String.join (ds.map Declaration.shown) ++
              "\x7d") := by
  refine ⟨fun d table previous rest h => Token.reads_declaration table d h rest, ?_,
    fun setting name ds htrue hfalse hds => ofText_ruleset setting htrue hfalse hds⟩
  intro σ _ d inner s rest ts hts hs
  obtain ⟨property, values, span, hread, hstatement⟩ := statement_of_declaration d inner hts hs
  have hlength : values.length = d.exprs.length := by
    have hmap := congrArg List.length hread.values
    rwa [List.length_map, List.length_map] at hmap
  refine ⟨property, values, span, hstatement, ?_, fun hd setting deeper selectors state => ?_⟩
  · rw [hlength]
    exact d.length_exprs_iff
  · exact run_declaration hd setting deeper selectors hread span state

/-- `-qt: -1.5px #fff red 'a\'' true;` -/
def mixedList : Declaration where
  property := .dashed false ⟨'q', ['t'], rfl, List.all_eq_true.mp rfl⟩
  values :=
    [.number true ⟨['1'], ['5'], ['p', 'x'], List.cons_ne_nil _ _, List.all_eq_true.mp rfl,
        List.all_eq_true.mp rfl, .inr (List.all_eq_true.mp rfl)⟩,
      .color ['f', 'f', 'f'] (List.all_eq_true.mp rfl) (by decide),
      .word ⟨'r', ['e', 'd'], rfl, List.all_eq_true.mp rfl⟩,
      .quoted '\'' ['a', '\\', '\''] (.inr rfl) (.plain (by decide) (by decide) (.escaped .nil)),
      .word ⟨'t', ['r', 'u', 'e'], rfl, List.all_eq_true.mp rfl⟩]
  values_ne_nil := List.cons_ne_nil _ _

/-- The list is scanned behind a semicolon before a text that cannot be scanned, its five literals
are five values, and in a ruleset all of them are put out. -/
theorem values_of_literals_mixedList :
    Token.Scanner.Reads .builtin (some .semicolon) mixedList.chars mixedList.tokens
      (some .semicolon) ['?'] ∧
    (∃ property values span before, statement (fun _ => pure [])
        (Cursor.on (.point 0) (.point 9) (mixedList.tokens.map fun p => ⟨p.1, p.2, .point 0⟩)) =
          .ok (some (.declare property values false span)) (Cursor.on before (.point 9) []) ∧
      values.length = 5) ∧
    ofText ⟨.ofTable ⟨[]⟩, .builtin, 1⟩ "A\x7b-qt: -1.5px #fff red 'a\\'' true;\x7d" =
      .ok "A\x7b-qt:-1.5px #fff red 'a\\'' true;\x7d" := by
  obtain ⟨hscan, hread, hbuild⟩ := values_of_literals
  have hlist : mixedList.IsList := by simp [Declaration.IsList, mixedList, Literal.isNegative]
  refine ⟨hscan mixedList .builtin (some .semicolon) ['?'] rfl, ?_, ?_⟩
  · obtain ⟨before, hyields⟩ := Cursor.yields_on_append (.point 0) (.point 9)
      (mixedList.tokens.map fun p => ⟨p.1, p.2, .point 0⟩) []
    rw [List.append_nil] at hyields
    obtain ⟨property, values, span, hstatement, hlength, -⟩ :=
      hread Cursor mixedList (fun _ => pure []) _ _ _ (by simp [Function.comp_def]) hyields
    exact ⟨property, values, span, before, hstatement, hlength.mpr hlist⟩
  · have htext : String.ofList (Token.rulesetChars ⟨'A', [], rfl, by simp⟩ [mixedList]) =
        "A\x7b-qt: -1.5px #fff red 'a\\'' true;\x7d" := by decide +kernel
    rw [← htext, hbuild _ _ [mixedList] (by decide +kernel) (by decide +kernel)
      (by simpa using hlist)]
    exact congrArg Except.ok (by decide +kernel)

/-- Behind a value a minus sign subtracts: two literals are then one value, or none at all. -/
theorem literals_subtracted :
    (ofText ⟨.ofTable ⟨[]⟩, .builtin, 1⟩ "A\x7bp: 1 -2;\x7d").toOption =
      some "A\x7bp:-1.0;\x7d" ∧
    (ofText ⟨.ofTable ⟨[]⟩, .builtin, 1⟩ "A\x7bp: a -1;\x7d").toOption = none := by
  decide +kernel

end Build

end StyleSheet

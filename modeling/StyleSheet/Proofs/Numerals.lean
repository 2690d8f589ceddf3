import StyleSheet.Proofs.Rounding
import StyleSheet.Proofs.ValueLists

/-!
# Numbers shown as they are written

What becomes of a variable that a literal is assigned to.  The text of the assignment is read as
one statement, and after it the variable has a value that is shown like the literal
(`shownAfter_assignment`).  For a number this is the rounding of its double to one decimal place,
and that gives the number back if it is a natural below `2 ^ 53`, or one with a single decimal
whose whole part is below `2 ^ 49`.
-/

namespace StyleSheet

open Token (Numeral Literal)

namespace Token

/-! ### Assignments of literals -/

/-- A variable, which is written with a dollar sign before its name.  A dash belongs to the name if
a letter follows it. -/
structure Variable where
  name : List Char
  headIs_name : headIs isNameStart name = true
  variableSize_name : variableSize name = name.length

namespace Variable

def chars (x : Variable) : List Char := '$' :: x.name

def text (x : Variable) : String := String.ofList x.chars

end Variable

/-- `$name: literal;` -/
def assignmentChars (x : Variable) (l : Literal) : List Char :=
  x.chars ++ ':' :: ' ' :: (l.chars ++ [';'])

def assignmentTokens (x : Variable) (l : Literal) : List (Kind × String) :=
  (.variableName, x.text) :: (.colon, ":") :: (l.tokens ++ [(.semicolon, ";")])

/-- The name of a variable ends before a colon. -/
lemma variableSize_append_colon {cs : List Char} (h : variableSize cs = cs.length)
    (rest : List Char) : variableSize (cs ++ ':' :: rest) = cs.length := by
  induction cs with
  | nil => rfl
  | cons c cs ih =>
    have hhead : headIs Char.isAlpha (cs ++ ':' :: rest) = headIs Char.isAlpha cs := by
      cases cs <;> rfl
    rw [variableSize] at h
    rw [List.cons_append, variableSize, hhead]
    split_ifs at h ⊢
    rw [ih (Nat.succ.inj h)]
    rfl

/-- At the start of a text an assignment of a literal is scanned into its tokens. -/
lemma reads_assignment (table : Keyword.Table) (x : Variable) (l : Literal) (rest : List Char) :
    Scanner.Reads table none (assignmentChars x l) (assignmentTokens x l) (some .semicolon)
      rest := by
  have hvariable : Scanner.Reads table none ([] ++ '$' :: x.name) [(.variableName, x.text)]
      (some .variableName) ([':'] ++ (' ' :: l.chars ++ ([';'] ++ rest))) := by
    refine Scanner.reads_lexeme .nil rfl (.inl rfl) ?_
    have hstart : headIs isNameStart
        (x.name ++ ([':'] ++ (' ' :: l.chars ++ ([';'] ++ rest)))) = true := by
      have hname := x.headIs_name
      cases hcs : x.name with
      | nil =>
        rw [hcs] at hname
        cases hname
      | cons c cs =>
        rw [hcs] at hname
        exact hname
    have hsize := variableSize_append_colon x.variableSize_name (' ' :: l.chars ++ ([';'] ++ rest))
    change variableLexeme _ = _
    rw [variableLexeme, if_pos hstart]
    exact congrArg (fun n => Except.ok (⟨.variableName, n⟩ : Lexeme)) hsize
  have hcolon : Scanner.Reads table (some .variableName) [':'] [(.colon, ":")] (some .colon)
      (' ' :: l.chars ++ ([';'] ++ rest)) := Scanner.reads_lexeme .nil rfl (.inl rfl) rfl
  have hliteral : Scanner.Reads table (some .colon) (' ' :: l.chars) l.tokens (some l.kind)
      ([';'] ++ rest) := reads_literal table l ⟨rfl, rfl⟩ ⟨rfl, rfl, rfl⟩
  have hend : Scanner.Reads table (some l.kind) [';'] [(.semicolon, ";")] (some .semicolon) rest :=
    Scanner.reads_lexeme .nil rfl (.inl l.inValue_kind.any) rfl
  have hall := ((hvariable.trans hcolon).trans hliteral).trans hend
  simpa [assignmentChars, assignmentTokens, Variable.chars] using hall

end Token

open Token (Variable assignmentChars)

namespace Sheet

open Reading

variable {σ : Type} [Window σ] {s rest : σ}

/-- Wherever the tokens of an assignment of a literal stand, it is read without any flag. -/
lemma statement_of_assignment (x : Variable) (l : Literal) (inner : Span → Reading σ (List Stmt))
    {ts : List Token} (hts : ts.map (fun t => (t.kind, t.text)) = Token.assignmentTokens x l)
    (hs : Window.Yields s ts rest) :
    ∃ target value span, target.name = x.text ∧
      value.mapSpans Span.forget = l.expr.mapSpans Span.forget ∧
      statement inner s = .ok (some (.assign target value false false span)) rest := by
  obtain ⟨name, ts, rfl, hname, hts⟩ := List.map_eq_cons_iff.mp hts
  obtain ⟨colon, ts, rfl, hcolon, hts⟩ := List.map_eq_cons_iff.mp hts
  obtain ⟨signed, ts, rfl, hts, hrendering⟩ := exists_rendering_of_tokens l hts
  obtain ⟨semicolon, _, rfl, hsemicolon, hnil⟩ := List.map_eq_cons_iff.mp hts
  obtain rfl := List.map_eq_nil_iff.mp hnil
  have hahead := ahead_eq_of_yields hs
  have hcurrent := hs.1
  obtain ⟨s₁, hadvance, hs₁⟩ := hs.exists_advance
  obtain ⟨s₂, hexpect, hs₂⟩ := expect_of_yields hs₁ (Prod.mk.inj hcolon).1
  obtain ⟨last, hs₂, hlast⟩ := hs₂.append
  have hend : (Window.current last).kind = .semicolon := by rw [hlast.1, (Prod.mk.inj hsemicolon).1]
  obtain ⟨value, hvalue, hsame⟩ := expression_of_yields hrendering hs₂ (by rw [hend]; rfl)
  obtain ⟨after, heat, hafter⟩ := eat_of_yields hlast (Prod.mk.inj hsemicolon).1
  obtain rfl : after = rest := hafter
  -- the semicolon is neither of the two flags
  have hflag : flag? last = .ok none last := by
    rw [flag?, bind_of_ok (eat_of_ne (by rw [hend]; decide))]
    change (eat (.keyword .bangDefault) >>= _) last = _
    rw [bind_of_ok (eat_of_ne (by rw [hend]; decide))]
    rfl
  have hflags : many flag? last = .ok [] last := by
    rw [many, repeatUpTo, bind_of_ok hflag]
    rfl
  have hfinish : endStatement last = .ok () after := by
    rw [endStatement, bind_of_ok heat]
    rfl
  have hassignment : assignment s = .ok (.assign ⟨name.text, name.span⟩ value false false
      (name.span.merge (Window.before last))) after := by
    rw [assignment, bind_of_ok hadvance, bind_of_ok hexpect, bind_of_ok hvalue, bind_of_ok hflags]
    exact bind_of_ok hfinish
  refine ⟨⟨name.text, name.span⟩, value, name.span.merge (Window.before last),
    (Prod.mk.inj hname).2, hsame, ?_⟩
  rw [statement, bind_window, hcurrent, (Prod.mk.inj hname).1, hahead]
  dsimp only
  rw [if_pos (Prod.mk.inj hcolon).1]
  exact bind_of_ok hassignment

/-- The text of an assignment of a literal is a sheet with the assignment as its only statement. -/
lemma exists_ofText_assignment (table : Keyword.Table) (x : Variable) (l : Literal) :
    ∃ target value span, target.name = x.text ∧
      value.mapSpans Span.forget = l.expr.mapSpans Span.forget ∧
      ofText table (String.ofList (assignmentChars x l)) =
        .ok [.assign target value false false span] := by
  obtain ⟨ts, stop, hts, htokenize⟩ := (Token.reads_assignment table x l []).exists_tokenize
  obtain ⟨before, hyields⟩ := Cursor.yields_on_append ⟨0, 0⟩ stop ts []
  rw [List.append_nil] at hyields
  obtain ⟨target, value, span, htarget, hvalue, hstatement⟩ :=
    statement_of_assignment x l (fun opened => statementsUpTo ts.length (some opened)) hts hyields
  have hne : ts ≠ [] := by
    rintro rfl
    cases hts
  exact ⟨target, value, span, htarget, hvalue, ofText_of_statement htokenize hne hstatement⟩

end Sheet

/-! ### The value of an assigned literal -/

/-- A literal that is read has a value, and that is shown like the literal. -/
lemma Token.Literal.exists_value_of_forget {e : Expr} {l : Literal}
    (h : e.mapSpans Span.forget = l.expr.mapSpans Span.forget) (lookup : String → Option Value) :
    ∃ v, e.value lookup = .ok v ∧ v.shown = l.shown := by
  obtain ⟨v, hv, hshown⟩ := l.exists_value_expr lookup
  have hforget := Expr.value_forget lookup e
  rw [h, Expr.value_forget, hv] at hforget
  cases hvalue : e.value lookup with
  | ok u =>
    rw [hvalue] at hforget
    cases hforget
    exact ⟨v, rfl, hshown⟩
  | error fault =>
    rw [hvalue] at hforget
    cases hforget

/-- In the global scope a binding is seen by every look-up. -/
lemma Environment.lookup_define_initial (name : String) (v : Value) :
    (initial.define name v).lookup name = some v ∧
      (initial.define name v).lookupGlobal name = some v := by
  have hat : (initial.define name v).scopes.valueAt? name 0 = some v := by
    simp [initial, define, Scopes.define, Scopes.valueAt?, Stack.current,
      Scope.define, Table.get?_insert]
  refine ⟨?_, hat⟩
  have hchain : (initial.define name v).scopes.chain 0 = [0] := by
    rw [Scopes.chain]
    simp [initial, define, Scopes.define, Stack.current, Scope.define,
      Scope.below]
  change ((initial.define name v).scopes.chain 0).findSome? _ = _
  rw [hchain, List.findSome?_singleton, hat]

namespace Session

open Evaluation

/-- A session goes on after an assignment with the variable bound in its innermost scope. -/
lemma program_assign (s : Session) (setting : Setting) {target : Ident} {value : Expr} {v : Value}
    (h : value.value s.state.env.lookup = .ok v) (span : Span) :
    s.program setting [.assign target value false false span] =
      (.ok s.output, ⟨⟨s.state.env.define target.name v, s.state.pending⟩, []⟩) := by
  have hvalue : valueOf value s.state = (.ok v, s.state) := by
    change ofExcept (value.value s.state.env.lookup) s.state = _
    rw [h]
    rfl
  have hassign : assign target.name value false false s.state =
      (.ok (), ⟨s.state.env.define target.name v, s.state.pending⟩) := by
    change (valueOf value >>= fun v => _) s.state = _
    rw [bind_of_eq_ok hvalue]
    rfl
  have hrun (deeper : Enclosing → List Stmt → Evaluation Output) :
      run setting deeper none (.assign target value false false span) s.state =
        (.ok .empty, ⟨s.state.env.define target.name v, s.state.pending⟩) := by
    rw [run, bind_of_eq_ok hassign]
    rfl
  rw [program_eq_conclude_runAll, runAll, bind_of_eq_ok (hrun _),
    bind_of_eq_ok (runAll_nil _ _ _ _)]
  change (Outcome.ok ("\n".intercalate (s.queue ++ [])), _) = _
  rw [List.append_nil]
  rfl

/-- The text can be read and evaluated from the start, with no output, and then the variable has a
value that is shown so. -/
def ShownAfter (setting : Setting) (source name shown : String) : Prop :=
  ∃ sheet session v, Sheet.ofText setting.keywords source = .ok sheet ∧
    initial.program setting sheet = (.ok "", session) ∧
    session.state.env.lookup name = some v ∧ session.state.env.lookupGlobal name = some v ∧
    v.shown = shown

/-- A variable is shown like the literal that is assigned to it. -/
lemma shownAfter_assignment (setting : Setting) (x : Variable) (l : Literal) :
    ShownAfter setting (String.ofList (assignmentChars x l)) x.text l.shown := by
  obtain ⟨target, value, span, htarget, hsame, hread⟩ :=
    Sheet.exists_ofText_assignment setting.keywords x l
  obtain ⟨v, hv, hshown⟩ := Token.Literal.exists_value_of_forget hsame initial.state.env.lookup
  have hlookup := Environment.lookup_define_initial x.text v
  rw [← htarget] at hlookup ⊢
  exact ⟨_, _, v, hread, initial.program_assign setting hv span, hlookup.1, hlookup.2, hshown⟩

end Session

/-! ### Numerals in decimal -/

namespace Number

/-- The digits of a natural denote it. -/
lemma ofDigits_toDigits (n : Nat) : ofDigits (Nat.toDigits 10 n) = n :=
  Nat.ofDigitChars_ten_toDigits

/-- One more digit is a tenth of the place before it. -/
lemma ofDigits_append_toDigits (n : Nat) {d : Nat} (hd : d < 10) :
    ofDigits (Nat.toDigits 10 n ++ Nat.toDigits 10 d) = 10 * n + d := by
  change Nat.ofDigitChars 10 (Nat.toDigits 10 n ++ Nat.toDigits 10 d) 0 = 10 * n + d
  rw [Nat.ofDigitChars_append, Nat.ofDigitChars_ten_toDigits, Nat.toDigits_of_lt_base hd,
    Nat.ofDigitChars_cons, Nat.toNat_digitChar_of_lt_ten hd]
  simp [Nat.ofDigitChars]

end Number

namespace Token.Numeral

variable {unit : String}

/-- Decimal digits are digits. -/
lemma isDigit_toDigits (n : Nat) : ∀ c ∈ Nat.toDigits 10 n, c.isDigit = true :=
  fun _ hc => Nat.isDigit_of_mem_toDigits (by decide) (by decide) hc

/-- A unit: a percent sign, or letters, maybe none. -/
def IsUnit (unit : String) : Prop := unit = "%" ∨ ∀ c ∈ unit.toList, c.isAlpha = true

/-- A unit is a percent sign or made of letters. -/
lemma IsUnit.form (h : IsUnit unit) :
    unit.toList = ['%'] ∨ ∀ c ∈ unit.toList, c.isAlpha = true := by
  rcases h with rfl | h
  · exact .inl rfl
  · exact .inr h

/-- A natural in decimal. -/
def ofNat (n : Nat) (hunit : IsUnit unit) : Numeral where
  whole := Nat.toDigits 10 n
  fraction := []
  unit := unit.toList
  whole_ne_nil := Nat.toDigits_ne_nil
  isDigit_whole := isDigit_toDigits n
  isDigit_fraction := fun _ hc => absurd hc List.not_mem_nil
  unit_form := hunit.form

/-- A natural and a tenth in decimal. -/
def ofTenths (whole tenth : Nat) (hunit : IsUnit unit) : Numeral where
  whole := Nat.toDigits 10 whole
  fraction := Nat.toDigits 10 tenth
  unit := unit.toList
  whole_ne_nil := Nat.toDigits_ne_nil
  isDigit_whole := isDigit_toDigits whole
  isDigit_fraction := isDigit_toDigits tenth
  unit_form := hunit.form

/-- A natural with 53 bits is shown with a zero behind the point. -/
lemma shown_ofNat {n : Nat} (hn : n < 2 ^ 53) (hunit : IsUnit unit) :
    (Literal.number false (ofNat n hunit)).shown = toString n ++ ".0" ++ unit := by
  have hmagnitude : (ofNat n hunit).magnitude = Number.nearest n 1 := by
    simp [magnitude, ofNat, Number.ofDigits_toDigits]
  change Number.text (ofNat n hunit).magnitude ++ String.ofList unit.toList = _
  rw [hmagnitude, Number.text_nearest_one hn, String.ofList_toList]

/-- Tenths are shown as they are written if the whole part has 49 bits. -/
lemma shown_ofTenths {whole tenth : Nat} (hwhole : whole < 2 ^ 49) (htenth : tenth < 10)
    (hunit : IsUnit unit) : (Literal.number false (ofTenths whole tenth hunit)).shown =
      toString whole ++ "." ++ toString tenth ++ unit := by
  have hmagnitude : (ofTenths whole tenth hunit).magnitude =
      Number.nearest (10 * whole + tenth) 10 := by
    have hlength : (Nat.toDigits 10 tenth).length = 1 := by
      rw [Nat.toDigits_of_lt_base htenth]
      rfl
    simp [magnitude, ofTenths, Number.ofDigits_append_toDigits whole htenth, hlength]
  change Number.text (ofTenths whole tenth hunit).magnitude ++ String.ofList unit.toList = _
  rw [hmagnitude, Number.text_nearest_ten hwhole htenth, String.ofList_toList]

/-- The characters of an assignment of a whole number are its text. -/
lemma ofList_assignment_ofNat (x : Variable) (n : Nat) (hunit : IsUnit unit) :
    String.ofList (assignmentChars x (.number false (ofNat n hunit))) =
      x.text ++ ": " ++ toString n ++ unit ++ ";" := by
  apply String.toList_injective
  simp [assignmentChars, Literal.chars, Literal.isNegative, Literal.body, chars, point, ofNat,
    Variable.text]

/-- The characters of an assignment of a number with one decimal place are its text. -/
lemma ofList_assignment_ofTenths (x : Variable) (whole tenth : Nat) (hunit : IsUnit unit) :
    String.ofList (assignmentChars x (.number false (ofTenths whole tenth hunit))) =
      x.text ++ ": " ++ toString whole ++ "." ++ toString tenth ++ unit ++ ";" := by
  apply String.toList_injective
  simp [assignmentChars, Literal.chars, Literal.isNegative, Literal.body, chars, point, ofTenths,
    Variable.text]

end Token.Numeral

namespace Session

open Token.Numeral (IsUnit)

/-- A number that is assigned to a variable is shown as it is written.  A natural below `2 ^ 53`
gets a zero behind its point, and a number with one decimal is shown unchanged if its whole part is
below `2 ^ 49`.  A unit stays behind the number. -/
theorem shownAfter_numeral (setting : Setting) (x : Variable) {unit : String}
    (hunit : IsUnit unit) :
    (∀ n < 2 ^ 53, ShownAfter setting (x.text ++ ": " ++ toString n ++ unit ++ ";") x.text
      (toString n ++ ".0" ++ unit)) ∧
    ∀ whole < 2 ^ 49, ∀ tenth < 10,
      ShownAfter setting (x.text ++ ": " ++ toString whole ++ "." ++ toString tenth ++ unit ++ ";")
        x.text (toString whole ++ "." ++ toString tenth ++ unit) := by
  refine ⟨fun n hn => ?_, fun whole hwhole tenth htenth => ?_⟩
  · rw [← Token.Numeral.ofList_assignment_ofNat x n hunit, ← Token.Numeral.shown_ofNat hn hunit]
    exact shownAfter_assignment setting x _
  · rw [← Token.Numeral.ofList_assignment_ofTenths x whole tenth hunit,
      ← Token.Numeral.shown_ofTenths hwhole htenth hunit]
    exact shownAfter_assignment setting x _

/-- `$a-b` -/
def dashedVariable : Variable := ⟨['a', '-', 'b'], rfl, rfl⟩

/-- The greatest numbers that the bounds allow, with a unit of each kind. -/
theorem shownAfter_numeral_greatest :
    ShownAfter ⟨.ofTable ⟨[]⟩, .builtin, 0⟩ "$a-b: 9007199254740991%;" "$a-b"
      "9007199254740991.0%" ∧
    ShownAfter ⟨.ofTable ⟨[]⟩, .builtin, 0⟩ "$a-b: 562949953421311.9px;" "$a-b"
      "562949953421311.9px" := by
  have hname : dashedVariable.text = "$a-b" := by decide +kernel
  have hnatural := (shownAfter_numeral ⟨.ofTable ⟨[]⟩, .builtin, 0⟩ dashedVariable
    (.inl rfl : IsUnit "%")).1 9007199254740991 (by decide)
  have htenths := (shownAfter_numeral ⟨.ofTable ⟨[]⟩, .builtin, 0⟩ dashedVariable
    (.inr (by simp) : IsUnit "px")).2 562949953421311 (by decide) 9 (by decide)
  have hdigits : toString 9007199254740991 = "9007199254740991" ∧
      toString 562949953421311 = "562949953421311" ∧ toString 9 = "9" := by decide +kernel
  rw [hname, hdigits.1] at hnatural
  rw [hname, hdigits.2.1, hdigits.2.2] at htenths
  exact ⟨by simpa using hnatural, by simpa using htenths⟩

end Session

end StyleSheet

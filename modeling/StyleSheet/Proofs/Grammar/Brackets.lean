import StyleSheet.Proofs.Grammar.Streaming

/-!
# Openers that wait to be closed

Braces and parentheses are matched as nested brackets by a walk over the tokens that keeps the
openers which are not closed yet, the innermost one first (`openersAfter`).  The walk knows nothing
of the grammar.

Reading is followed by it: the place where a window stands is the list of the openers that wait
there (`openings`).  Tokens in which each bracket is closed leave that list as it is, so the opener
that a reading has kept is on top again where its closer is wanted.  Hence an error for something
unclosed names the innermost opener that the whole input leaves open
(`innermost_of_ofText_eq_unclosed`).
-/

namespace StyleSheet.Sheet

/-! ### Matching -/

/-- The openers that wait after the innermost one is closed, if it is of the right kind. -/
def closeInnermost (d : Delimiter) : List Token → Option (List Token)
  | opener :: outer => if opener.kind = d.opener then some outer else none
  | [] => none

/-- The openers that wait after one more token; a closer that does not match is refused. -/
def openersStep (openers : List Token) (t : Token) : Option (List Token) :=
  match t.kind with
  | .leftBrace | .leftParen => some (t :: openers)
  | .rightBrace => closeInnermost .brace openers
  | .rightParen => closeInnermost .paren openers
  | _ => some openers

/-- The openers that wait after tokens, innermost first, unless a closer does not match. -/
def openersAfter (openers : List Token) (ts : List Token) : Option (List Token) :=
  ts.foldlM openersStep openers

/-- The last of the tokens changes what the others have left. -/
lemma openersAfter_concat {openers waiting ts : List Token} {t : Token}
    (h : openersAfter openers ts = some waiting) :
    openersAfter openers (ts ++ [t]) = openersStep waiting t := by
  have hlast : openersAfter waiting [t] = (openersStep waiting t).bind some := List.foldlM_cons
  rw [openersAfter, List.foldlM_append, show ts.foldlM openersStep openers = _ from h]
  exact hlast.trans (Option.bind_fun_some _)

/-- A token that is no bracket leaves the openers as they are. -/
lemma openersStep_plain {t : Token} (h : t.kind.isBracket = false) (openers : List Token) :
    openersStep openers t = some openers := by
  unfold openersStep
  split
  all_goals first
    | rfl
    | rename_i hk
      rw [hk] at h
      cases h

/-- An opener waits in front of the others. -/
lemma openersStep_opener {t : Token} {d : Delimiter} (h : t.kind = d.opener)
    (openers : List Token) : openersStep openers t = some (t :: openers) := by
  cases d with
  | brace => rw [openersStep, h]; rfl
  | paren => rw [openersStep, h]; rfl

/-- A closer closes the innermost opener if it is of its kind. -/
lemma openersStep_closer {t opener : Token} {d : Delimiter} (h : t.kind = d.closer)
    (ho : opener.kind = d.opener) (outer : List Token) :
    openersStep (opener :: outer) t = some outer := by
  have hclose : openersStep (opener :: outer) t = closeInnermost d (opener :: outer) := by
    cases d with
    | brace => rw [openersStep, h]; rfl
    | paren => rw [openersStep, h]; rfl
  rw [hclose]
  exact if_pos ho

/-- A token is no bracket, or it opens something, or it closes something. -/
lemma isBracket_cases (t : Token) : t.kind.isBracket = false ∨
    (∃ d : Delimiter, t.kind = d.opener) ∨ ∃ d : Delimiter, t.kind = d.closer := by
  cases h : t.kind.isBracket with
  | false => exact .inl rfl
  | true =>
    unfold Token.Kind.isBracket at h
    split at h
    · rename_i hk
      exact .inr (.inl ⟨.brace, hk⟩)
    · rename_i hk
      exact .inr (.inr ⟨.brace, hk⟩)
    · rename_i hk
      exact .inr (.inl ⟨.paren, hk⟩)
    · rename_i hk
      exact .inr (.inr ⟨.paren, hk⟩)
    · cases h

/-! ### Places -/

/-- The openers that wait behind a token.  A closer that does not match, which reading never takes,
is passed over. -/
def openersBehind (openers : List Token) (t : Token) : List Token :=
  (openersStep openers t).getD openers

section Places

variable {Tok : List Token → Token → Prop} {Last : List Token → Span → Prop}

/-- Tokens in which each bracket is closed leave the openers as they are. -/
lemma eq_of_balanced {openers openers' : List Token}
    (h : (Track.single Tok openersBehind Last).Balanced openers openers') :
    openers = openers' := by
  induction h with
  | refl => rfl
  | plain _ hkind =>
    simp only [Track.single, openersBehind, openersStep_plain hkind, Option.getD_some]
  | wrap ho hopen _ _ hclose ih =>
    rw [← ih]
    simp only [Track.single, openersBehind, openersStep_opener hopen, Option.getD_some,
      openersStep_closer hclose hopen]
  | trans _ _ ih ih' => exact ih.trans ih'

/-- What is open is the innermost opener that waits. -/
lemma exists_innermost_of_opened {d : Delimiter} {base openers : List Token} {span span' : Span}
    (h : (Track.single Tok openersBehind Last).Opened d base openers span span') :
    ∃ opener, openers = opener :: base ∧ opener.kind = d.opener ∧ opener.span = span := by
  obtain ⟨opener, -, hopen, hspan, hinside⟩ := Survey.exists_of_opened h
  refine ⟨opener, ?_, hopen, hspan⟩
  rw [← eq_of_balanced hinside, openersBehind, openersStep_opener hopen]
  rfl

end Places

open Window (Takes)

variable {σ : Type} [Window σ]

/-- The windows that are reached from one window, each at the openers that wait there.  What is
unclosed is the innermost opener, and the window shows the end of the input. -/
def openings (s : σ) : Survey σ (List Token) where
  Tok openers t := ∃ used c, Takes s used c ∧ Window.current c = t ∧
    openersAfter [] used = some openers
  next := openersBehind
  Last _ _ := True
  At openers c := ∃ used, Takes s used c ∧ openersAfter [] used = some openers
  Fail _ e := ∀ d span, e = .unclosed d span → ∃ used c opener outer, Takes s used c ∧
    (Window.current c).kind = .eof ∧ openersAfter [] used = some (opener :: outer) ∧
    opener.kind = d.opener ∧ opener.span = span
  current := by
    rintro openers c ⟨used, hused, hopeners⟩
    exact ⟨used, c, hused, rfl, hopeners⟩
  last _ := trivial
  advance := by
    rintro openers c c' ⟨used, hused, hopeners⟩ hne hclose hnext
    have hstep : openersStep openers (Window.current c) =
        some (openersBehind openers (Window.current c)) := by
      unfold openersBehind
      rcases isBracket_cases (Window.current c) with hplain | ⟨d, hopen⟩ | ⟨d, hcloser⟩
      · rw [openersStep_plain hplain]
        rfl
      · rw [openersStep_opener hopen]
        rfl
      · -- the grammar takes a closer only where it belongs to the innermost opener
        obtain ⟨base, span, hopened⟩ := hclose d hcloser
        obtain ⟨opener, rfl, hkind, -⟩ := exists_innermost_of_opened hopened
        rw [openersStep_closer hcloser hkind]
        rfl
    exact ⟨_, hused.step hne hnext, (openersAfter_concat hopeners).trans hstep⟩
  scan _ _ _ := nofun
  unexpected _ _ := nofun
  expectedExpression _ := nofun
  invalid _ _ _ := nofun
  unclosed := by
    rintro d base openers span t hopened ⟨used, c, hused, rfl, hopeners⟩ hk _ _ ⟨⟩
    obtain ⟨opener, rfl, hkind, hspan⟩ := exists_innermost_of_opened hopened
    exact ⟨used, c, opener, base, hused, hk, hopeners, hkind, hspan⟩

/-! ### Texts -/

/-- If a text is refused because something is unclosed, then it can be scanned to its end, its
closers match, and the error names the innermost of the openers that are left. -/
theorem innermost_of_ofText_eq_unclosed (table : Keyword.Table) (source : String) (d : Delimiter)
    (span : Span) (h : ofText table source = .error (.unclosed d span)) :
    ∃ tokens opener outer, (Token.tokenize table source).all = .ok tokens ∧
      openersAfter [] tokens = some (opener :: outer) ∧
      opener.kind = d.opener ∧ opener.span = span := by
  rcases cases_of_ofText_eq_error h with ⟨_, hscan⟩ | ⟨s, t, hs, ht⟩
  · cases hscan
  · have hat : (openings s).At [] s := ⟨[], .refl s, rfl⟩
    have hends := (openings s).ends_statementsUpTo (.blind _) (Window.size s + 1) hat
    rw [ht] at hends
    cases hends with
    | failed _ hfail =>
      obtain ⟨used, c, opener, outer, hused, hend, hopeners, hkind, hspan⟩ := hfail d span rfl
      obtain ⟨stop, hending, rfl⟩ := Stream.tokens_of_takes_eof hs hused hend
      refine ⟨_, opener, outer, congrArg (Except.map _) hending, ?_, hkind, hspan⟩
      rw [openersAfter_concat hopeners]
      rfl

/-- Closed parentheses stand before and inside of the one that is left open in two open braces. -/
def nestedText : String := "A\x7bx:(1);B\x7by:(2 + (3)"

/-- The error for the text names the parenthesis around the sum, inside of two braces. -/
theorem innermost_of_ofText_eq_unclosed_nestedText :
    ofText .builtin nestedText = .error (.unclosed .paren ⟨12, 13⟩) ∧
      ∃ tokens opener outer, (Token.tokenize .builtin nestedText).all = .ok tokens ∧
        openersAfter [] tokens = some (opener :: outer) ∧
        opener.kind = .leftParen ∧ opener.span = ⟨12, 13⟩ := by
  have herror : (ofText .builtin nestedText).map (fun _ => ()) =
      .error (.unclosed .paren ⟨12, 13⟩) := by decide +kernel
  have h : ofText .builtin nestedText = .error (.unclosed .paren ⟨12, 13⟩) := by
    cases hread : ofText .builtin nestedText with
    | ok sheet =>
      rw [hread] at herror
      cases herror
    | error e =>
      rw [hread] at herror
      cases herror
      rfl
  exact ⟨h, innermost_of_ofText_eq_unclosed .builtin nestedText .paren ⟨12, 13⟩ h⟩

end StyleSheet.Sheet

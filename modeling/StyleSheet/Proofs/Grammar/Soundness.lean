import StyleSheet.Proofs.Grammar.Shape
import StyleSheet.Proofs.Grammar.Window

/-!
# Readings take forms of the grammar

Whatever a reading of the grammar takes is of the form it is named for.  The walk over the grammar
puts forms together, with the kinds of the tokens that are left as places (`formSurvey`), and each
rule of the grammar is one of the forms (`formTrees`).
-/

namespace StyleSheet.Sheet

open Form Cursor

/-- A token stands at the first of the kinds that are left, or at their end. -/
def Form.HeadIs (ks : Kinds) (t : Token) : Prop :=
  (t.kind = .eof ∧ ks = []) ∨ t.kind ≠ .eof ∧ ∃ rest, ks = t.kind :: rest

/-- The kinds that are left in a window on tokens. -/
def formSurvey (stop : Span) : Survey Cursor Kinds where
  Tok := HeadIs
  next ks _ := ks.tail
  Last _ _ := True
  At ks c := ∃ before ts, c = on before stop ts ∧ Readable ts ∧ kinds ts = ks
  Fail _ _ := True
  current := by
    rintro _ _ ⟨before, ts, rfl, hr, rfl⟩
    cases ts with
    | nil => exact .inl ⟨rfl, rfl⟩
    | cons t us =>
      rw [current_on_cons]
      exact .inr ⟨hr.head_ne_eof, kinds us, rfl⟩
  last _ := trivial
  advance := by
    rintro _ _ c' ⟨before, ts, rfl, hr, rfl⟩ hne - h
    cases ts with
    | nil => exact absurd rfl hne
    | cons t us =>
      rw [advance_on_cons] at h
      cases h
      exact ⟨t.span, us, rfl, hr.tail, rfl⟩
  scan _ _ _ := trivial
  unexpected _ _ := trivial
  expectedExpression _ := trivial
  invalid _ _ _ := trivial
  unclosed _ _ _ := trivial

section Forms

variable {stop : Span} {α β : Type} {i j : Kinds} {t t' : Token}

/-- The track of a survey of forms. -/
abbrev formTrack (stop : Span) : Track Kinds := (formSurvey stop).walk.toTrack

/-! ### Parts of the grammar -/

/-- A token before the end of the input is the first of those that are left. -/
lemma eq_cons_of_tok (ht : (formTrack stop).Tok i t t') (hne : t.kind ≠ .eof) :
    i = t.kind :: (formTrack stop).next i t := by
  obtain ⟨-, ⟨heof, -⟩ | ⟨-, rest, rfl⟩⟩ := ht
  · exact absurd heof hne
  · rfl

/-- The kind of the current token is the first of the kinds that are left. -/
lemma eq_cons_of_kind {kind : Token.Kind} (ht : (formTrack stop).Tok i t t') (hkind : t.kind = kind)
    (hne : kind ≠ .eof) : i = kind :: (formTrack stop).next i t := by
  subst hkind
  exact eq_cons_of_tok ht hne

/-- A token that was read as one of a class has the form of the class. -/
lemma one_of_track {made : Token → α → Prop} {p : Token.Kind → Prop} {a b : α}
    (hmade : ∀ ⦃t a⦄, made t a → p t.kind ∧ t.kind ≠ .eof)
    (h : (formTrack stop).One made i j a b) : Form.One p i j := by
  obtain ⟨ht, ha, -⟩ := h
  rw [eq_cons_of_tok ht (hmade ha).2]
  exact .mk (hmade ha).1

/-- A single token is the first of the kinds that are left. -/
lemma exists_cons_of_one {p : Token.Kind → Prop} (h : Form.One p i j) :
    ∃ k, p k ∧ i = k :: j := by
  obtain ⟨hk⟩ := h
  exact ⟨_, hk, rfl⟩

/-- A repetition has the form of a repetition if its items have their form. -/
lemma many_of_track {item : Kinds → Kinds → α → β → Prop} {form : Kinds → Kinds → Prop}
    (hitem : ∀ ⦃i j a b⦄, item i j a b → form i j) {as : List α} {bs : List β}
    (h : Track.Many item i j as bs) : Form.Many form i j := by
  induction h with
  | nil => exact .nil
  | cons first _ ih => exact .cons (hitem first) ih

/-- A list with commas has the form of one if its items have their form. -/
lemma separated_of_track {item : Kinds → Kinds → α → β → Prop} {form : Kinds → Kinds → Prop}
    (hitem : ∀ ⦃i j a b⦄, item i j a b → form i j) {as : List α} {bs : List β}
    (h : (formTrack stop).Separated item i j as bs) : Form.Separated form i j := by
  induction h with
  | nil => exact .nil
  | last only => exact .last (hitem only)
  | cons first ht hkind _ ih =>
    have hfirst := hitem first
    rw [eq_cons_of_kind ht hkind nofun] at hfirst
    exact .cons hfirst ih

/-- A list in parentheses has the form of one if its items have their form. -/
lemma parenthesized_of_track {item : Kinds → Kinds → α → β → Prop} {form : Kinds → Kinds → Prop}
    (hitem : ∀ ⦃i j a b⦄, item i j a b → form i j) {as : List α} {bs : List β}
    (h : (formTrack stop).Parenthesized item i j as bs) : Form.Parenthesized form i j := by
  cases h with
  | absent => exact .absent
  | present ho hopen items hc hclose =>
    have hitems := separated_of_track hitem items
    rw [eq_cons_of_kind hc hclose nofun] at hitems
    rw [eq_cons_of_kind ho hopen nofun]
    exact .present hitems

/-- The end of a statement has its form. -/
lemma end_of_track (h : (formTrack stop).End i j) : Form.End i j := by
  cases h with
  | semicolon ht hkind =>
    rw [eq_cons_of_kind ht hkind nofun]
    exact .semicolon
  | absent ht hkind =>
    obtain ⟨-, ⟨-, rfl⟩ | ⟨hne, rest, rfl⟩⟩ := ht
    · exact .input
    · rw [hkind.resolve_right hne]
      exact .brace

/-- A mark that was there or not has the form of an option. -/
lemma optional_of_track {kind : Token.Kind} (hne : kind ≠ .eof) {b : Bool}
    (h : (formTrack stop).Marked kind i j b) : Form.Optional kind i j := by
  cases h with
  | absent => exact .absent
  | present ht hkind =>
    rw [eq_cons_of_kind ht hkind hne]
    exact .present

/-- Statements have their form if each of them has. -/
lemma statements_of_track {as bs : List Stmt}
    (h : (formTrack stop).Statements (fun i j _ _ => Statement i j) i j as bs) :
    Form.Statements i j := by
  induction h with
  | nil => exact .nil
  | semicolon ht hkind _ ih =>
    rw [eq_cons_of_kind ht hkind nofun]
    exact .semicolon ih
  | cons first _ ih => exact .cons first ih

/-- A block has its form if its statements have theirs. -/
lemma block_of_track {b b' : StyleSheet.Block Stmt}
    (h : (formTrack stop).Braced (fun i j _ _ => Statement i j) i j b b') : Form.Block i j := by
  obtain ⟨ho, hopen, ⟨inside, hc, hclose⟩, -⟩ := h
  have hstatements := statements_of_track inside
  rw [eq_cons_of_kind hc hclose nofun] at hstatements
  rw [eq_cons_of_kind ho hopen nofun]
  exact .mk hstatements

/-! ### Trees -/

/-- What is read as an atom is of the kind of one. -/
lemma isAtom_of_atom? {e : Expr} (h : atom? t = some e) : IsAtom t.kind ∧ t.kind ≠ .eof := by
  unfold atom? at h
  split at h
  all_goals first
    | (rename_i hk; rw [hk]; exact ⟨by simp [Form.IsAtom], nofun⟩)
    | (split at h
       · rename_i hselector
         refine ⟨by simp [Form.IsAtom, hselector], fun heof => ?_⟩
         rw [heof] at hselector
         cases hselector
       · cases h)

/-- What is read as a name is of the kind of one. -/
lemma isName_of_isNamed ⦃t : Token⦄ ⦃name : String⦄ (h : IsNamed t name) :
    IsName t.kind ∧ t.kind ≠ .eof := by
  obtain ⟨hk, -⟩ := h
  generalize t.kind = kind at hk
  cases kind <;> cases hk <;> exact ⟨by simp [IsName], nofun⟩

/-- What is read in a target is of the kind of a part of it. -/
lemma isTargetPart_of_inTarget ⦃t u : Token⦄ (h : InTarget t u) :
    IsTargetPart t.kind ∧ t.kind ≠ .eof := by
  refine ⟨h.1, fun heof => ?_⟩
  obtain ⟨hk | hk, -⟩ := h <;> rw [heof] at hk <;> cases hk

/-- What is read in a selector is of the kind of a part of it. -/
lemma isHeaderPart_of_inHeader ⦃t u : Token⦄ (h : InHeader t u) :
    IsHeaderPart t.kind ∧ t.kind ≠ .eof := by
  refine ⟨h.1, fun heof => ?_⟩
  obtain ⟨hk | hk, -⟩ := h <;> rw [heof] at hk <;> cases hk

/-- A statement that starts with `@if` is a conditional. -/
lemma Form.Statement.conditional_of_atIf {ks rest : Kinds}
    (h : Statement (.keyword .atIf :: ks) rest) : Conditional (.keyword .atIf :: ks) rest := by
  cases h with
  | conditional cond => exact cond
  | ruleset hk => cases hk
  | expression _ value => exact absurd value.startsOperand (by decide)

/-- Each tree is read from a form. -/
def formTrees (stop : Span) : (formTrack stop).Trees where
  Operand i j _ _ := Operand i j
  Value i j _ _ := Expression i j
  Statement i j _ _ := Statement i j
  atom ht he _ := by
    obtain ⟨hatom, hne⟩ := isAtom_of_atom? he
    obtain ⟨-, ⟨heof, -⟩ | ⟨-, rest, rfl⟩⟩ := ht
    · exact absurd heof hne
    · exact .atom hatom
  negate ht hk h := by
    rw [eq_cons_of_kind ht hk nofun]
    exact .negated h
  enclosed ho hopen h hc hclose := by
    rw [eq_cons_of_kind hc hclose nofun] at h
    rw [eq_cons_of_kind ho hopen nofun]
    exact .enclosed h
  operand h := .mk h .nil
  binary := by
    rintro i j l t t' op e e' r r' ⟨first, others⟩ ht hop hright
    rw [eq_cons_of_tok ht (plain_of_ofKind? hop).1] at others
    exact .mk first (others.append (Operations.of_expression hop hright))
  assign := by
    intro i j l m name name' colon colon' e e' flags last last' hname hk hcolon hkcolon hvalue
      hflags _ hend
    have hflag : ∀ ⦃t : Token⦄ ⦃f : Flag⦄, t.kind = f.kind → IsFlag t.kind ∧ t.kind ≠ .eof := by
      intro t f h
      rw [h]
      cases f
      · exact ⟨.inl rfl, nofun⟩
      · exact ⟨.inr rfl, nofun⟩
    rw [eq_cons_of_kind hname hk nofun,
      eq_cons_of_kind hcolon hkcolon nofun]
    exact .assignment hvalue (many_of_track (fun _ _ _ _ => one_of_track hflag) hflags)
      (end_of_track hend)
  declare := by
    intro i j l m n property property' colon colon' e e' es es' important last last' hproperty hk
      hcolon hkcolon hfirst hothers himportant _ hend
    rw [eq_cons_of_kind hproperty hk nofun,
      eq_cons_of_kind hcolon hkcolon nofun]
    exact .declaration hfirst (many_of_track (fun _ _ _ _ => id) hothers)
      (optional_of_track nofun himportant) (end_of_track hend)
  importFile := by
    intro i j start start' path path' hstart hk hpath hkpath hend
    rw [eq_cons_of_kind hstart hk nofun,
      eq_cons_of_kind hpath hkpath nofun]
    exact .importation (end_of_track hend)
  mixin := by
    intro i j l m start start' name name' params params' body body' hstart hk hname hparams hbody
    obtain ⟨k, hkname, hcons⟩ := exists_cons_of_one (one_of_track isName_of_isNamed hname)
    rw [eq_cons_of_kind hstart hk nofun, hcons]
    exact .mixin hkname (parenthesized_of_track (fun _ _ _ _ => one_of_track fun t _ h =>
      ⟨h.1, by rw [h.1]; exact nofun⟩) hparams) (block_of_track hbody)
  expand := by
    intro i j l m start start' name name' args args' last last' hstart hk hname hargs _ hend
    obtain ⟨k, hkname, hcons⟩ := exists_cons_of_one (one_of_track isName_of_isNamed hname)
    rw [eq_cons_of_kind hstart hk nofun, hcons]
    exact .expansion hkname (parenthesized_of_track (fun _ _ _ _ => id) hargs) (end_of_track hend)
  extend := by
    intro i j l start start' target target' last last' hstart hk htarget hne _ hend
    rw [eq_cons_of_kind hstart hk nofun]
    cases htarget with
    | nil => exact absurd rfl hne
    | cons first others =>
      obtain ⟨k, hktarget, hcons⟩ :=
        exists_cons_of_one (one_of_track isTargetPart_of_inTarget first)
      rw [hcons]
      exact .extension hktarget
        (many_of_track (fun _ _ _ _ => one_of_track isTargetPart_of_inTarget)
        others) (end_of_track hend)
  branch := by
    intro i j l m start start' e e' yes yes' no no' last last' hstart hk hcondition hyes hno _
    have hblock := block_of_track hyes
    rw [eq_cons_of_kind hstart hk nofun]
    refine .conditional ?_
    cases hno with
    | absent => exact .plain hcondition hblock
    | block ht hkind hother =>
      rw [eq_cons_of_kind ht hkind nofun] at hblock
      exact .otherwise hcondition hblock (block_of_track hother)
    | chained ht hkind hu hukind hnext =>
      rw [eq_cons_of_kind ht hkind nofun] at hblock
      refine .chained hcondition hblock ?_
      rw [eq_cons_of_kind hu hukind nofun] at hnext ⊢
      exact hnext.conditional_of_atIf
  ruleset := by
    intro i j l first first' header header' body body' last last' hfirst hk hheader hbody _
    have hne : first.kind ≠ .eof := by
      intro heof
      rw [heof] at hk
      cases hk
    rw [eq_cons_of_tok hfirst hne]
    exact .ruleset hk (many_of_track (fun _ _ _ _ => one_of_track isHeaderPart_of_inHeader) hheader)
      (block_of_track hbody)
  expr := by
    intro i j l t t' e e' ht hk hvalue hend
    obtain ⟨-, ⟨-, rfl⟩ | ⟨-, rest, rfl⟩⟩ := ht
    · obtain ⟨_, _, hnil, -⟩ := hvalue.exists_head
      cases hnil
    · exact .expression hk hvalue (end_of_track hend)

end Forms

/-- What is read to the end of the input is a sheet. -/
lemma isSheet_of_statementsUpTo {n : Nat} {before stop : Span} {ts : List Token} {sheet : Sheet}
    {c : Cursor} (hr : Readable ts) (h : statementsUpTo n none (on before stop ts) = .ok sheet c) :
    IsSheet (kinds ts) ∧ ∃ before', c = on before' stop [] := by
  have hends := (formSurvey stop).ends_statementsUpTo (formTrees stop) n ⟨before, ts, rfl, hr, rfl⟩
  rw [h] at hends
  cases hends with
  | ok hat _ _ hgood =>
    obtain ⟨⟨_, hform⟩, t, ht, heof⟩ := hgood
    obtain ⟨before', us, rfl, hus, hkinds⟩ := hat
    obtain ⟨-, hnil⟩ | ⟨hne, -⟩ := ht
    · rw [hnil] at hform hkinds
      rw [kinds_eq_nil hkinds]
      exact ⟨statements_of_track hform, before', rfl⟩
    · exact absurd heof hne

end StyleSheet.Sheet

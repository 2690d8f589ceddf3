import StyleSheet.Proofs.Scanning.Suffixes

/-!
# Declarations of literals

A declaration whose values are literals with single spaces between them.  The forms carry their own
well-formedness, so that each of them can be written down, and they say without a walk over
characters which tokens are meant.

Whatever stands around such a declaration, it is scanned into these tokens (`reads_declaration`).
Where its name stands a selector could start too, but the look ahead for a header gets stuck at a
quote or at the semicolon.  Behind the colon neither a selector nor a name of a property can start,
so a word is a value there and a dash is a minus sign.
-/

namespace StyleSheet.Token

open Header (Name)

/-! ### Forms -/

/-- A number as it is written: digits, maybe a point with digits behind it, and a unit, which is a
percent sign or letters. -/
structure Numeral where
  whole : List Char
  fraction : List Char
  unit : List Char
  whole_ne_nil : whole ≠ []
  isDigit_whole : ∀ c ∈ whole, c.isDigit = true
  isDigit_fraction : ∀ c ∈ fraction, c.isDigit = true
  unit_form : unit = ['%'] ∨ ∀ c ∈ unit, c.isAlpha = true

namespace Numeral

/-- The fraction with its point; a number without a fraction has none. -/
def point (n : Numeral) : List Char := if n.fraction = [] then [] else '.' :: n.fraction

def chars (n : Numeral) : List Char := n.whole ++ (n.point ++ n.unit)

/-- The double nearest to the decimal value. -/
def magnitude (n : Numeral) : Float :=
  Number.nearest (Number.ofDigits (n.whole ++ n.fraction)) (Nat.pow 10 n.fraction.length)

def unit? (n : Numeral) : Option String :=
  if n.unit = [] then none else some (String.ofList n.unit)

end Numeral

/-- What can stand between quotes: a backslash protects the character behind it, and no other quote
of the kind is there. -/
inductive Quotable (quote : Char) : List Char → Prop where
  | nil : Quotable quote []
  | plain {c : Char} {cs : List Char} (hquote : c ≠ quote) (hslash : c ≠ '\\')
    (h : Quotable quote cs) : Quotable quote (c :: cs)
  | escaped {c : Char} {cs : List Char} (h : Quotable quote cs) : Quotable quote ('\\' :: c :: cs)

inductive Literal where
  | number (negative : Bool) (n : Numeral)
  /-- A number sign with hexadecimal digits. -/
  | color (digits : List Char) (h : ∀ c ∈ digits, isHexDigit c = true)
    (hlength : digits.length ∈ [3, 4, 6, 8])
  /-- A bare word; it can be the name of a colour or a truth value. -/
  | word (name : Name)
  | quoted (quote : Char) (content : List Char) (hquote : quote = '"' ∨ quote = '\'')
    (h : Quotable quote content)

/-- What a bare word is as a value. -/
def wordKind (text : String) : Kind :=
  if text == "true" then .litTrue
  else if text == "false" then .litFalse
  else if Color.isName text then .color
  else .string

namespace Literal

def isNegative : Literal → Bool
  | number negative _ => negative
  | _ => false

/-- The literal without the sign. -/
def body : Literal → List Char
  | number _ n => n.chars
  | color digits _ _ => '#' :: digits
  | word name => name.chars
  | quoted quote content _ _ => quote :: (content ++ [quote])

def kind : Literal → Kind
  | number .. => .number
  | color .. => .color
  | word name => wordKind (String.ofList name.chars)
  | quoted .. => .string

def chars (l : Literal) : List Char := if l.isNegative then '-' :: l.body else l.body

/-- The tokens of a literal; a sign is a token of its own. -/
def tokens (l : Literal) : List (Kind × String) :=
  (if l.isNegative then [(.minus, "-")] else []) ++ [(l.kind, String.ofList l.body)]

end Literal

/-- The name of a property, maybe with dashes in front of it. -/
inductive Property where
  /-- A name that is no truth value. -/
  | plain (name : Name) (htrue : String.ofList name.chars ≠ "true")
    (hfalse : String.ofList name.chars ≠ "false")
  | dashed (double : Bool) (name : Name)

namespace Property

def chars : Property → List Char
  | plain name _ _ => name.chars
  | dashed false name => '-' :: name.chars
  | dashed true name => '-' :: '-' :: name.chars

def text (p : Property) : String := String.ofList p.chars

end Property

/-- Literals with a space in front of each. -/
def listChars (ls : List Literal) : List Char := ls.flatMap fun l => ' ' :: l.chars

/-- A property with a list of literals. -/
structure Declaration where
  property : Property
  values : List Literal
  values_ne_nil : values ≠ []

namespace Declaration

def chars (d : Declaration) : List Char := d.property.chars ++ ':' :: (listChars d.values ++ [';'])

def tokens (d : Declaration) : List (Kind × String) :=
  (.property, d.property.text) :: (.colon, ":") ::
    (d.values.flatMap Literal.tokens ++ [(.semicolon, ";")])

end Declaration

/-! ### Where a literal ends -/

/-- What does not start with a wider class does not start with a narrower one. -/
lemma headIs_eq_false_of_imp {p q : Char → Bool} {cs : List Char}
    (himp : ∀ c, q c = true → p c = true) (h : headIs p cs = false) : headIs q cs = false := by
  cases cs with
  | nil => rfl
  | cons c cs => exact Bool.eq_false_iff.mpr fun hc => Bool.eq_false_iff.mp h (himp c hc)

/-- No literal goes on with the text, and no word before it is the name of a property. -/
structure EndsLiteral (rest : List Char) : Prop where
  name : headIs isNameChar rest = false
  mark : headIs (fun c => c == '.' || c == '%') rest = false
  colon : colonFollows rest = false

/-- Digits may stand in names. -/
lemma isNameChar_of_isDigit {c : Char} (h : c.isDigit = true) : isNameChar c = true := by
  simp [isNameChar, Char.isAlphanum, h]

/-- Letters may stand in names. -/
lemma isNameChar_of_isAlpha {c : Char} (h : c.isAlpha = true) : isNameChar c = true := by
  simp [isNameChar, Char.isAlphanum, h]

/-- After the token a value goes on, so that neither a selector nor a property can start. -/
structure InValue (previous : Option Kind) : Prop where
  selectorMayFollow : selectorMayFollow previous = false
  any : previous.any Kind.isSimpleSelector = false

/-- Inside of a value no declaration may follow. -/
lemma InValue.declarationMayFollow {previous : Option Kind} (h : InValue previous) :
    declarationMayFollow previous = false := by
  have hselector := h.selectorMayFollow
  rcases previous with _ | k
  · cases hselector
  · cases k <;> first | rfl | cases hselector

/-- A literal is a number, a colour, a string or a truth value. -/
lemma Literal.kind_mem (l : Literal) :
    l.kind ∈ [.number, .color, .string, .litTrue, .litFalse] := by
  cases l with
  | word name =>
    rw [kind, wordKind]
    split_ifs <;> simp
  | _ => simp [kind]

/-- Behind a literal one is inside of a value. -/
lemma Literal.inValue_kind (l : Literal) : InValue (some l.kind) := by
  have hmem := l.kind_mem
  generalize l.kind = k at hmem
  simp only [List.mem_cons, List.not_mem_nil, or_false] at hmem
  rcases hmem with rfl | rfl | rfl | rfl | rfl
  all_goals exact ⟨rfl, rfl⟩

/-! ### Literals as lexemes -/

section Lexemes

variable {table : Keyword.Table} {previous : Option Kind} {attached : Bool} {rest : List Char}

namespace Numeral

/-- Neither digits nor a fraction go on where the unit starts. -/
lemma headIs_unit (n : Numeral) (hrest : EndsLiteral rest) :
    headIs (fun c => c.isDigit || c == '.') (n.unit ++ rest) = false := by
  rcases n.unit_form with h | h
  · rw [h]
    rfl
  · cases hunit : n.unit with
    | nil =>
      have hdigit := headIs_eq_false_of_imp (fun _ => isNameChar_of_isDigit) hrest.name
      have hmark := hrest.mark
      cases rest with
      | nil => rfl
      | cons c rest => simp_all [headIs]
    | cons a unit =>
      have ha : a ∈ n.unit := by
        rw [hunit]
        exact List.mem_cons_self
      exact not_numeral_of_isAlpha (h a ha)

/-- The unit of a numeral is read up to its end. -/
lemma unitSize_unit (n : Numeral) (hrest : EndsLiteral rest) :
    unitSize (n.unit ++ rest) = n.unit.length := by
  rcases n.unit_form with h | h
  · rw [h]
    rfl
  · have halpha := headIs_eq_false_of_imp (fun _ => isNameChar_of_isAlpha) hrest.name
    have hrun := Header.runSize_append h halpha
    rw [← hrun]
    cases hcs : n.unit ++ rest with
    | nil => rfl
    | cons a cs =>
      have hpercent : a ≠ '%' := by
        rintro rfl
        cases hunit : n.unit with
        | nil =>
          rw [hunit, List.nil_append] at hcs
          have hmark := hrest.mark
          rw [hcs] at hmark
          cases hmark
        | cons b unit =>
          rw [hunit] at hcs
          obtain ⟨rfl, -⟩ := List.cons.inj hcs
          exact absurd (h '%' (by simp [hunit])) (by decide)
      simp [unitSize, hpercent]

/-- The fraction of a numeral is read up to its end. -/
lemma fractionSize_point (n : Numeral) (hrest : EndsLiteral rest) :
    fractionSize (n.point ++ (n.unit ++ rest)) = n.point.length := by
  have hunit := n.headIs_unit hrest
  by_cases hnil : n.fraction = []
  · simp only [point, hnil, if_true, List.nil_append, List.length_nil]
    cases hcs : n.unit ++ rest with
    | nil => rfl
    | cons a cs =>
      rw [hcs] at hunit
      have hdot : a ≠ '.' := by
        rintro rfl
        cases hunit
      simp [fractionSize, hdot]
  · obtain ⟨d, ds, hds⟩ := List.exists_cons_of_ne_nil hnil
    have hdigit : headIs Char.isDigit (n.unit ++ rest) = false :=
      headIs_eq_false_of_imp (fun c hc => by simp [hc]) hunit
    have hfirst : d.isDigit = true := n.isDigit_fraction d (by simp [hds])
    have hhead : headIs Char.isDigit (n.fraction ++ (n.unit ++ rest)) = true := by
      rw [hds]
      exact hfirst
    simp only [point, hnil, if_false, List.cons_append, fractionSize, hhead, if_true,
      Header.runSize_append n.isDigit_fraction hdigit, List.length_cons]

/-- A number is scanned up to its end. -/
lemma number_chars (n : Numeral) (hrest : EndsLiteral rest) {c : Char} {more : List Char}
    (h : n.chars = c :: more) : number (more ++ rest) = ⟨.number, more.length⟩ := by
  obtain ⟨d, ds, hds⟩ := List.exists_cons_of_ne_nil n.whole_ne_nil
  obtain ⟨rfl, rfl⟩ : c = d ∧ more = ds ++ (n.point ++ n.unit) := by
    rw [chars, hds] at h
    exact ⟨(List.cons.inj h).1.symm, (List.cons.inj h).2.symm⟩
  have hds : ∀ e ∈ ds, e.isDigit = true := fun e he => n.isDigit_whole e (by simp [hds, he])
  have hstop : headIs Char.isDigit (n.point ++ (n.unit ++ rest)) = false := by
    by_cases hnil : n.fraction = []
    · simp only [point, hnil, if_true, List.nil_append]
      exact headIs_eq_false_of_imp (fun c hc => by simp [hc]) (n.headIs_unit hrest)
    · simp only [point, hnil, if_false]
      rfl
  have hsplit : ds ++ (n.point ++ n.unit) ++ rest = ds ++ (n.point ++ (n.unit ++ rest)) := by simp
  simp only [number, hsplit, Header.runSize_append hds hstop, List.drop_left,
    n.fractionSize_point hrest, ← List.drop_drop, n.unitSize_unit hrest, List.length_append,
    Nat.add_assoc]

end Numeral

/-- A digit starts a number. -/
lemma lexeme_of_isDigit {c : Char} (hc : c.isDigit = true) :
    lexeme table previous attached c rest = .ok (number rest) := by
  have hne {d : Char} (hd : d.isDigit = false) : (c == d) = false := by
    simpa using Header.ne_of_class hc hd
  simp (disch := decide) only [lexeme, punctuation?, hne, hc, Bool.false_and, Bool.false_or,
    Bool.false_eq_true, if_false, if_true]

/-- A quotable content is read up to the closing quote. -/
lemma stringSize?_content {quote : Char} (hquote : quote ≠ '\\') {content : List Char}
    (h : Quotable quote content) :
    stringSize? quote (content ++ quote :: rest) = some (content.length + 1) := by
  induction h with
  | nil => simp [stringSize?, hquote]
  | plain hne hslash _ ih => simp [stringSize?, hne, hslash, ih]
  | escaped _ ih => simp [stringSize?, ih]

/-- Behind a value a word is a value as well. -/
lemma word_name (hprevious : InValue previous) (name : Name) (hrest : EndsLiteral rest) :
    word previous name.first (name.more ++ rest) =
      .ok ⟨wordKind (String.ofList name.chars), name.more.length⟩ := by
  have hstarts : selectorStarts previous (name.first :: (name.more ++ rest)) = false := by
    simp [selectorStarts, hprevious.selectorMayFollow]
  have hsize := Header.runSize_append name.isNameChar_more hrest.name
  simp only [word, hsize, List.take_left, List.drop_left, hstarts, hrest.colon, wordKind,
    Name.chars, Bool.false_eq_true, if_false]
  split_ifs <;> simp_all

/-- Behind a value a number sign with digits is a colour. -/
lemma hash_digits (hprevious : InValue previous) {digits : List Char}
    (h : ∀ c ∈ digits, isHexDigit c = true) (hlength : digits.length ∈ [3, 4, 6, 8])
    (hrest : EndsLiteral rest) : hash previous (digits ++ rest) = .ok ⟨.color, digits.length⟩ := by
  have hstarts : selectorStarts previous ('#' :: (digits ++ rest)) = false := by
    simp [selectorStarts, hprevious.selectorMayFollow]
  have hstop := headIs_eq_false_of_imp (fun _ => Header.isNameChar_of_isHexDigit) hrest.name
  have hsize := Header.runSize_append h hstop
  have hfits : (digits.length == 3 || digits.length == 4 || digits.length == 6 ||
      digits.length == 8) = true := by
    simpa [or_assoc] using hlength
  simp only [hash, hstarts, hsize, List.drop_left, hrest.name, hfits, Bool.false_eq_true, if_false,
    Bool.not_false, Bool.and_self, if_true]

/-- A character of a name starts no trivia. -/
lemma startsTrivia_of_isNameChar {c : Char} (hc : isNameChar c = true) (cs : List Char) :
    startsTrivia (c :: cs) = false := by
  have hne {d : Char} (hd : isNameChar d = false) : c ≠ d := Header.ne_of_class hc hd
  have hblank : isBlank c = false := by
    simp [isBlank, hne (d := ' ') (by decide), hne (d := '\t') (by decide),
      hne (d := '\n') (by decide), hne (d := '\r') (by decide)]
  rw [startsTrivia, hblank, Header.opens_eq_none (hne (by decide))]
  rfl

/-- Where a value goes on and ends behind it, a literal without its sign is one lexeme. -/
lemma Literal.exists_lexeme (table : Keyword.Table) (l : Literal) (hprevious : InValue previous)
    (hrest : EndsLiteral rest) (attached : Bool) :
    ∃ c more, l.body = c :: more ∧ startsTrivia (c :: (more ++ rest)) = false ∧
      lexeme table previous attached c (more ++ rest) = .ok ⟨l.kind, more.length⟩ := by
  cases l with
  | number negative n =>
    obtain ⟨c, ds, hds⟩ := List.exists_cons_of_ne_nil n.whole_ne_nil
    have hc : c.isDigit = true := n.isDigit_whole c (by simp [hds])
    have hchars : n.chars = c :: (ds ++ (n.point ++ n.unit)) := by rw [Numeral.chars, hds]; rfl
    refine ⟨c, _, hchars, startsTrivia_of_isNameChar (isNameChar_of_isDigit hc) _, ?_⟩
    rw [lexeme_of_isDigit hc, n.number_chars hrest hchars]
    rfl
  | color digits h hlength =>
    exact ⟨'#', digits, rfl, rfl, hash_digits hprevious h hlength hrest⟩
  | word name =>
    have hfirst := Header.isNameChar_of_isNameStart name.isNameStart_first
    refine ⟨name.first, name.more, rfl, startsTrivia_of_isNameChar hfirst _, ?_⟩
    rw [Header.lexeme_of_isNameStart name.isNameStart_first]
    exact word_name hprevious name hrest
  | quoted quote content hquote h =>
    have hsize : stringSize? quote (content ++ quote :: rest) = some (content.length + 1) :=
      stringSize?_content (by rcases hquote with rfl | rfl <;> decide) h
    have hlexeme (cs : List Char) :
        lexeme table previous attached quote cs = quotedString quote cs := by
      rcases hquote with rfl | rfl <;> rfl
    refine ⟨quote, content ++ [quote], rfl, by rcases hquote with rfl | rfl <;> rfl, ?_⟩
    simp only [hlexeme, List.append_assoc, List.cons_append, List.nil_append, quotedString, hsize,
      kind, List.length_append, List.length_cons, List.length_nil]

end Lexemes

/-! ### What stands around literals -/

section Around

variable {rest : List Char}

/-- A literal does not start with a colon or with a blank. -/
lemma Literal.exists_first (l : Literal) :
    ∃ c more, l.chars = c :: more ∧ c ∉ [' ', '\t', ':'] := by
  by_cases hnegative : l.isNegative = true
  · exact ⟨'-', l.body, if_pos hnegative, by decide⟩
  · have hname {c : Char} (hc : isNameChar c = true) : c ∉ [' ', '\t', ':'] := by
      intro h
      simp only [List.mem_cons, List.not_mem_nil, or_false] at h
      rcases h with rfl | rfl | rfl
      all_goals exact absurd hc (by decide)
    rw [chars, if_neg hnegative]
    cases l with
    | number negative n =>
      obtain ⟨c, ds, hds⟩ := List.exists_cons_of_ne_nil n.whole_ne_nil
      refine ⟨c, ds ++ (n.point ++ n.unit), by rw [body, Numeral.chars, hds]; rfl, ?_⟩
      exact hname (isNameChar_of_isDigit (n.isDigit_whole c (by simp [hds])))
    | color digits => exact ⟨'#', digits, rfl, by decide⟩
    | word name =>
      exact ⟨name.first, name.more, rfl,
        hname (Header.isNameChar_of_isNameStart name.isNameStart_first)⟩
    | quoted quote content hquote =>
      exact ⟨quote, content ++ [quote], rfl, by rcases hquote with rfl | rfl <;> decide⟩

/-- A literal ends before the next one and before the semicolon. -/
lemma endsLiteral_list (ls : List Literal) (rest : List Char) :
    EndsLiteral (listChars ls ++ ';' :: rest) := by
  cases ls with
  | nil => exact ⟨rfl, rfl, rfl⟩
  | cons l ls =>
    obtain ⟨c, more, hchars, hc⟩ := l.exists_first
    simp only [List.mem_cons, List.not_mem_nil, or_false, not_or] at hc
    refine ⟨rfl, rfl, ?_⟩
    simp [listChars, hchars, colonFollows, hc]

/-- The look-ahead passes a numeral. -/
lemma headerAhead_numeral (n : Numeral) :
    headerAhead (.plain 0) (n.chars ++ rest) = headerAhead (.plain 0) rest := by
  have hdigits {cs : List Char} (h : ∀ c ∈ cs, c.isDigit = true) (rest : List Char) :
      headerAhead (.plain 0) (cs ++ rest) = headerAhead (.plain 0) rest :=
    Header.headerAhead_names fun c hc => isNameChar_of_isDigit (h c hc)
  have hpoint (rest : List Char) :
      headerAhead (.plain 0) (n.point ++ rest) = headerAhead (.plain 0) rest := by
    unfold Numeral.point
    split_ifs
    · rfl
    · rw [List.cons_append, Header.headerAhead_mark (by decide), hdigits n.isDigit_fraction]
  have hunit : headerAhead (.plain 0) (n.unit ++ rest) = headerAhead (.plain 0) rest := by
    rcases n.unit_form with h | h
    · rw [h]
      exact Header.headerAhead_mark (by decide)
    · exact Header.headerAhead_names fun c hc => isNameChar_of_isAlpha (h c hc)
  rw [Numeral.chars, List.append_assoc, List.append_assoc, hdigits n.isDigit_whole, hpoint, hunit]

/-- The look ahead for a header passes over a literal or gets stuck at its quotes. -/
lemma headerAhead_literal (l : Literal) (h : headerAhead (.plain 0) rest = false) :
    headerAhead (.plain 0) (l.chars ++ rest) = false := by
  have hbody : headerAhead (.plain 0) (l.body ++ rest) = false := by
    cases l with
    | number negative n => rwa [Literal.body, headerAhead_numeral]
    | color digits hdigits hlength =>
      have hnames : ∀ c ∈ digits, isNameChar c = true := fun c hc =>
        Header.isNameChar_of_isHexDigit (hdigits c hc)
      rwa [Literal.body, List.cons_append, Header.headerAhead_mark (by decide),
        Header.headerAhead_names hnames]
    | word name => rwa [Literal.body, Header.headerAhead_name]
    | quoted quote content hquote hcontent => rcases hquote with rfl | rfl <;> rfl
  unfold Literal.chars
  split_ifs
  · rwa [List.cons_append, Header.headerAhead_cons (by decide) (by decide) (by decide)]
  · exact hbody

/-- No header is ahead of a list of literals that a semicolon ends. -/
lemma headerAhead_list (ls : List Literal) (rest : List Char) :
    headerAhead (.plain 0) (listChars ls ++ ';' :: rest) = false := by
  induction ls with
  | nil => rfl
  | cons l ls ih =>
    have hliteral := headerAhead_literal l ih
    rw [listChars, List.flatMap_cons, List.append_assoc, List.cons_append,
      Header.headerAhead_cons (by decide) (by decide) (by decide)]
    exact hliteral

end Around

/-! ### Steps of the scanner -/

section Steps

variable {table : Keyword.Table} {previous : Option Kind} {rest : List Char}

/-- A literal behind a space is scanned into its tokens. -/
lemma reads_literal (table : Keyword.Table) (l : Literal) (hprevious : InValue previous)
    (hrest : EndsLiteral rest) :
    Scanner.Reads table previous (' ' :: l.chars) l.tokens (some l.kind) rest := by
  have hspace : Trivia [' '] := .blank rfl .nil
  by_cases hnegative : l.isNegative = true
  · -- The sign is a token of its own, and the number is attached to it.
    have hminus : InValue (some .minus) := ⟨rfl, rfl⟩
    obtain ⟨c, more, hbody, hc, hlexeme⟩ := l.exists_lexeme table hminus hrest true
    have hsign : Scanner.Reads table previous ([' '] ++ ['-']) [(.minus, "-")] (some .minus)
        ([] ++ c :: more ++ rest) := by
      refine Scanner.reads_lexeme hspace rfl (.inl hprevious.any) ?_
      change Except.ok (minus previous _) = _
      simp [minus, hprevious.declarationMayFollow]
    have hnumber := Scanner.reads_lexeme .nil hc (.inl rfl) hlexeme
    have hboth := hsign.trans hnumber
    simpa [Literal.chars, Literal.tokens, hnegative, hbody] using hboth
  · obtain ⟨c, more, hbody, hc, hlexeme⟩ := l.exists_lexeme table hprevious hrest false
    have hread := Scanner.reads_lexeme hspace hc (.inl hprevious.any) hlexeme
    simpa [Literal.chars, Literal.tokens, hnegative, hbody] using hread

/-- Literals are scanned one after another. -/
lemma reads_list (table : Keyword.Table) (ls : List Literal) (hprevious : InValue previous) :
    ∃ last, InValue last ∧ Scanner.Reads table previous (listChars ls)
      (ls.flatMap Literal.tokens) last (';' :: rest) := by
  induction ls generalizing previous with
  | nil => exact ⟨previous, hprevious, fun offset => ⟨[], rfl, rfl⟩⟩
  | cons l ls ih =>
    obtain ⟨last, hlast, hothers⟩ := ih l.inValue_kind
    exact ⟨last, hlast, (reads_literal table l hprevious (endsLiteral_list ls rest)).trans hothers⟩

/-- A name with dashes in front of it and a colon behind is taken for a property. -/
lemma minus_dashed (hprevious : declarationMayFollow previous = true) (double : Bool) (name : Name)
    {cs : List Char} (h : (Property.dashed double name).chars = '-' :: cs) :
    minus previous (cs ++ ':' :: ' ' :: rest) = ⟨.property, cs.length⟩ := by
  have hrun : runSize isNameChar (name.chars ++ ':' :: ' ' :: rest) = name.chars.length :=
    Header.runSize_append name.isNameChar_chars rfl
  have hstart : headIs isNameStart (name.chars ++ ':' :: ' ' :: rest) = true :=
    name.isNameStart_first
  obtain ⟨hsize, hpos⟩ : dashedSize (cs ++ ':' :: ' ' :: rest) = cs.length ∧ 0 < cs.length := by
    cases double with
    | false =>
      obtain rfl : name.chars = cs := (List.cons.inj h).2
      have hdash : name.first ≠ '-' := Header.ne_of_class name.isNameStart_first (by decide)
      refine ⟨?_, Nat.succ_pos _⟩
      rw [← hrun]
      simp_all [Name.chars, dashedSize]
    | true =>
      obtain rfl : '-' :: name.chars = cs := (List.cons.inj h).2
      refine ⟨?_, Nat.succ_pos _⟩
      simp [dashedSize, hrun, hstart]
  have hcolon : colonFollows (':' :: ' ' :: rest) = true := rfl
  simp [minus, hsize, hprevious, hpos, hcolon]

/-- A word before a colon is a property if no header is ahead. -/
lemma word_property {name : Name} (htrue : String.ofList name.chars ≠ "true")
    (hfalse : String.ofList name.chars ≠ "false") (hrest : headerAhead (.plain 0) rest = false) :
    word previous name.first (name.more ++ ':' :: ' ' :: rest) =
      .ok ⟨.property, name.more.length⟩ := by
  have hahead : headerAhead (.plain 0) (name.chars ++ ':' :: ' ' :: rest) = false := by
    rw [Header.headerAhead_name, Header.headerAhead_mark (by decide),
      Header.headerAhead_cons (by decide) (by decide) (by decide), hrest]
  have hstarts :
      selectorStarts previous (name.first :: (name.more ++ ':' :: ' ' :: rest)) = false := by
    rw [selectorStarts, Bool.and_eq_false_iff]
    exact .inr hahead
  have hsize : runSize isNameChar (name.more ++ ':' :: ' ' :: rest) = name.more.length :=
    Header.runSize_append name.isNameChar_more rfl
  have hcolon : colonFollows (':' :: ' ' :: rest) = true := rfl
  rw [Name.chars] at htrue hfalse
  simp only [word, hsize, List.take_left, List.drop_left, hstarts, hcolon,
    beq_eq_false_iff_ne.mpr htrue, beq_eq_false_iff_ne.mpr hfalse, Bool.false_eq_true, if_false,
    if_true]

/-- A property is scanned where a declaration can start. -/
lemma reads_property (table : Keyword.Table) (p : Property)
    (hprevious : declarationMayFollow previous = true)
    (hrest : headerAhead (.plain 0) rest = false) :
    Scanner.Reads table previous p.chars [(.property, p.text)] (some .property)
      (':' :: ' ' :: rest) := by
  have hany : previous.any Kind.isSimpleSelector = false := by
    rcases previous with _ | k
    · rfl
    · cases k <;> first | rfl | cases hprevious
  have hdashed {double : Bool} {name : Name} {cs : List Char}
      (h : (Property.dashed double name).chars = '-' :: cs) :
      Scanner.Reads table previous (Property.dashed double name).chars
        [(.property, (Property.dashed double name).text)] (some .property)
        (':' :: ' ' :: rest) := by
    have hlexeme : minus previous (cs ++ ':' :: ' ' :: rest) = ⟨.property, cs.length⟩ :=
      minus_dashed hprevious double name h
    rw [Property.text, h]
    exact Scanner.reads_lexeme .nil rfl (.inl hany) (congrArg Except.ok hlexeme)
  cases p with
  | plain name htrue hfalse =>
    have hfirst := Header.isNameChar_of_isNameStart name.isNameStart_first
    have hlexeme : lexeme table previous true name.first (name.more ++ ':' :: ' ' :: rest) =
        .ok ⟨.property, name.more.length⟩ := by
      rw [Header.lexeme_of_isNameStart name.isNameStart_first, word_property htrue hfalse hrest]
    exact Scanner.reads_lexeme .nil (startsTrivia_of_isNameChar hfirst _) (.inl hany) hlexeme
  | dashed double name =>
    cases double with
    | false => exact hdashed rfl
    | true => exact hdashed rfl

/-- Where a declaration can start, a declaration of literals is scanned into its tokens, whatever
follows it. -/
lemma reads_declaration (table : Keyword.Table) (d : Declaration)
    (hprevious : declarationMayFollow previous = true) (rest : List Char) :
    Scanner.Reads table previous d.chars d.tokens (some .semicolon) rest := by
  obtain ⟨l, ls, hvalues⟩ := List.exists_cons_of_ne_nil d.values_ne_nil
  have hchars : listChars d.values ++ ';' :: rest =
      ' ' :: (l.chars ++ (listChars ls ++ ';' :: rest)) := by
    rw [hvalues, listChars, List.flatMap_cons, List.append_assoc]
    rfl
  have hproperty : Scanner.Reads table previous d.property.chars [(.property, d.property.text)]
      (some .property) ([':'] ++ (listChars d.values ++ ';' :: rest)) := by
    rw [hchars]
    exact reads_property table d.property hprevious
      (headerAhead_literal l (headerAhead_list ls rest))
  have hcolon : Scanner.Reads table (some .property) [':'] [(.colon, ":")] (some .colon)
      (listChars d.values ++ ';' :: rest) := Scanner.reads_lexeme .nil rfl (.inl rfl) rfl
  have hstart : InValue (some .colon) := ⟨rfl, rfl⟩
  obtain ⟨last, hlast, hlist⟩ : ∃ last, InValue last ∧ Scanner.Reads table (some .colon)
      (listChars d.values) (d.values.flatMap Literal.tokens) last ([';'] ++ rest) :=
    reads_list table d.values hstart
  have hend : Scanner.Reads table last [';'] [(.semicolon, ";")] (some .semicolon) rest :=
    Scanner.reads_lexeme .nil rfl (.inl hlast.any) rfl
  have hall := ((hproperty.trans hcolon).trans hlist).trans hend
  simpa [Declaration.chars, Declaration.tokens] using hall

/-- Declarations of literals are scanned one after another. -/
lemma reads_declarations (table : Keyword.Table) (ds : List Declaration)
    (hprevious : declarationMayFollow previous = true) (rest : List Char) :
    ∃ last, declarationMayFollow last = true ∧ Scanner.Reads table previous
      (ds.flatMap Declaration.chars) (ds.flatMap Declaration.tokens) last rest := by
  induction ds generalizing previous with
  | nil => exact ⟨previous, hprevious, fun offset => ⟨[], rfl, rfl⟩⟩
  | cons d ds ih =>
    obtain ⟨last, hlast, hothers⟩ := ih (rfl : declarationMayFollow (some .semicolon) = true)
    exact ⟨last, hlast, (reads_declaration table d hprevious _).trans hothers⟩

/-- A type selector with declarations of literals between braces. -/
def rulesetChars (name : Name) (ds : List Declaration) : List Char :=
  name.chars ++ '{' :: (ds.flatMap Declaration.chars ++ ['}'])

def rulesetTokens (name : Name) (ds : List Declaration) : List (Kind × String) :=
  (.typeSelector, String.ofList name.chars) :: (.leftBrace, "\x7b") ::
    (ds.flatMap Declaration.tokens ++ [(.rightBrace, "\x7d")])

/-- A ruleset with such declarations is scanned into its tokens. -/
lemma reads_ruleset (table : Keyword.Table) {name : Name}
    (htrue : String.ofList name.chars ≠ "true") (hfalse : String.ofList name.chars ≠ "false")
    (ds : List Declaration) (rest : List Char) :
    Scanner.Reads table none (rulesetChars name ds) (rulesetTokens name ds) (some .rightBrace)
      rest := by
  obtain ⟨k, hk, hname⟩ := Header.reads_selector table .nil (rfl : selectorMayFollow none = true)
    (.compound (.typeName name htrue hfalse) []) (rfl : headIs Header.endsSelector
      (['{'] ++ (ds.flatMap Declaration.chars ++ (['}'] ++ rest))) = true) rfl
  have hbrace : Scanner.Reads table (some k) ['{'] [(.leftBrace, "\x7b")] (some .leftBrace)
      (ds.flatMap Declaration.chars ++ (['}'] ++ rest)) :=
    Scanner.reads_lexeme .nil rfl (.inr (.inl rfl)) rfl
  obtain ⟨last, hlast, hbody⟩ := reads_declarations table ds
    (rfl : declarationMayFollow (some .leftBrace) = true) (['}'] ++ rest)
  have hend : Scanner.Reads table last ['}'] [(.rightBrace, "\x7d")] (some .rightBrace) rest :=
    Scanner.reads_lexeme .nil rfl (.inr (.inl rfl)) rfl
  have hall := ((hname.trans hbrace).trans hbody).trans hend
  simpa [rulesetChars, rulesetTokens, Header.Selector.chars, Header.Selector.tokens,
    Header.Head.chars, Header.Head.kind, Header.strongest] using hall

/-- A text that is scanned up to its end is cut into the tokens read. -/
lemma Scanner.Reads.exists_tokenize {text : List Char} {ps : List (Kind × String)}
    {last : Option Kind} (h : Scanner.Reads table none text ps last []) :
    ∃ ts span, ts.map (fun t => (t.kind, t.text)) = ps ∧
      tokenize table (String.ofList text) = ⟨ts, .ok span⟩ := by
  obtain ⟨ts, hts, hrun⟩ := h 0
  have hend (offset : Nat) : ∃ span,
      (Scanner.mk offset last []).run table = ⟨[], .ok span⟩ := by
    have hcut : (Scanner.mk offset last []).cut table = .ok ⟨.eof, 0, 0⟩ := by
      simp [Scanner.cut, Scanner.joinsSelectors, triviaSize]
    rw [Scanner.run_eq, Scanner.next, hcut]
    exact ⟨_, rfl⟩
  obtain ⟨span, hspan⟩ := hend (0 + Text.byteLength text)
  refine ⟨ts, span, hts, ?_⟩
  rw [tokenize, Scanner.ofText, String.toList_ofList, ← List.append_nil text, hrun, hspan]
  simp [Tokenization.prepend]

end Steps

end StyleSheet.Token

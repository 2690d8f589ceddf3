import StyleSheet.Proofs.Scanning.HeaderTokens

/-!
# Suffixes of a reference to the parent

Behind `&` the parts of a compound selector are a token of their own.  That token is not reached by
the walk over a selector but by the dispatch on its first character, so it matters which part comes
first.  No token starts with a bracket, and a number sign with three, four, six or eight digits
behind it is a colour.  With any other first part the suffix is one selector token
(`reads_suffix_iff`).
-/

namespace StyleSheet.Token

open Scanner

namespace Header

/-! ### Forms -/

/-- What can stand between brackets: all quotes are closed, and no bracket stands outside of
them. -/
inductive Attribute : List Char → Prop where
  | nil : Attribute []
  | plain {c : Char} {cs : List Char} (hc : c ∉ ['[', ']', '"', '\'']) (h : Attribute cs) :
    Attribute (c :: cs)
  | quoted {quote : Char} {content cs : List Char} (hquote : quote = '"' ∨ quote = '\'')
    (hcontent : quote ∉ content) (h : Attribute cs) :
    Attribute (quote :: (content ++ quote :: cs))

/-- A part of a compound selector; here an attribute may hold characters that no header has. -/
inductive Suffix where
  | bracketed (content : List Char) (h : Attribute content)
  | named (part : Part) (h : part.isAttribute = false)

namespace Suffix

def chars : Suffix → List Char
  | bracketed content _ => '[' :: (content ++ [']'])
  | named part _ => part.chars

end Suffix

/-- Whether a number sign before the name makes a colour. -/
def Name.isColor (n : Name) : Bool :=
  n.chars.all isHexDigit && n.chars.length ∈ [3, 4, 6, 8]

/-- Whether the part is scanned as the start of a selector right behind `&`. -/
def Suffix.attaches : Suffix → Bool
  | bracketed .. => false
  | named (.idName name) _ => !name.isColor
  | named .. => true

/-- The text of parts. -/
def suffixChars (parts : List Suffix) : List Char := parts.flatMap Suffix.chars

/-! ### The walk over a suffix -/

section Walk

open Compound

variable {s : Compound} {rest : List Char} {state : CompoundState}

/-- The walk passes over an attribute with its closing bracket. -/
lemma exists_scan_attribute {opened : Nat} {content : List Char} (h : Attribute content) :
    ∃ s' : Compound, s'.size = s.size + content.length + 1 ∧
      scan (.bracket opened none) s (content ++ ']' :: rest) = scan .boundary s' rest := by
  induction h generalizing s with
  | nil => exact ⟨_, rfl, rfl⟩
  | @plain c cs hc _ ih =>
    simp only [List.mem_cons, List.not_mem_nil, or_false, not_or] at hc
    obtain ⟨s', hsize, hscan⟩ := ih (s := s.grow)
    refine ⟨s', by simp only [hsize, grow, List.length_cons]; omega, ?_⟩
    rw [List.cons_append, scan]
    simp only [hc, beq_iff_eq, Bool.or_eq_true, or_self, if_false, hscan]
  | @quoted quote content cs hquote hcontent _ ih =>
    have hstart (tail : List Char) : scan (.bracket opened none) s (quote :: tail) =
        scan (.bracket opened (some quote)) s.grow tail := by
      rcases hquote with rfl | rfl
      · rfl
      · rfl
    obtain ⟨s', hsize, hscan⟩ := ih (s := longer s.grow (content.length + 1))
    refine ⟨s', ?_, ?_⟩
    · simp only [hsize, longer, grow, List.length_cons, List.length_append]
      omega
    · simp only [List.cons_append, List.append_assoc]
      rw [hstart, scan_quoted hcontent, hscan]

/-- The walk passes over a part and stands where the next one can start. -/
lemma AtPart.exists_scan_suffix (hstate : AtPart state) (p : Suffix) :
    ∃ (state' : CompoundState) (s' : Compound), AtPart state' ∧
      s'.size = s.size + p.chars.length ∧
      scan state s (p.chars ++ rest) = scan state' s' rest := by
  cases p with
  | bracketed content h =>
    have hstart (tail : List Char) :
        s.startPart '[' tail = some (.bracket s.size none, s.grow) := rfl
    obtain ⟨s', hsize, hscan⟩ : ∃ s' : Compound, s'.size = s.grow.size + content.length + 1 ∧
        scan (.bracket s.size none) s.grow (content ++ ']' :: rest) = scan .boundary s' rest :=
      exists_scan_attribute h
    refine ⟨.boundary, s', .inr rfl, ?_, ?_⟩
    · simp only [hsize, grow, Suffix.chars, List.length_cons, List.length_append, List.length_nil]
      omega
    · simp only [Suffix.chars, List.cons_append, List.append_assoc, List.nil_append]
      rw [hstate.scan_start (by decide) (hstart _), hscan]
  | named part h =>
    obtain ⟨state', hstate', hscan⟩ := hstate.scan_part part
    exact ⟨state', withPart s part, hstate', rfl, hscan⟩

/-- The walk passes over all parts and stops behind them. -/
lemma AtPart.exists_scan_suffixes (hstate : AtPart state) (parts : List Suffix)
    (hrest : headIs endsSelector rest = true) :
    ∃ s' : Compound, s'.size = s.size + (suffixChars parts).length ∧
      scan state s (suffixChars parts ++ rest) = .ok s' := by
  induction parts generalizing s state with
  | nil => exact ⟨s, rfl, hstate.scan_stop hrest⟩
  | cons p parts ih =>
    obtain ⟨state', s₁, hstate', hsize, hscan⟩ : ∃ (state' : CompoundState) (s₁ : Compound),
        AtPart state' ∧ s₁.size = s.size + p.chars.length ∧
        scan state s (p.chars ++ (suffixChars parts ++ rest)) = scan state' s₁ _ :=
      hstate.exists_scan_suffix p
    obtain ⟨s₂, hsize', hscan'⟩ := ih (s := s₁) hstate'
    refine ⟨s₂, ?_, ?_⟩
    · rw [hsize', hsize, suffixChars, suffixChars, List.flatMap_cons, List.length_append,
        Nat.add_assoc]
    · rw [suffixChars, List.flatMap_cons, List.append_assoc]
      exact hscan.trans hscan'

/-- A walk that starts before the first character gives the selector, where a point or a number
sign has a name behind it. -/
lemma selector_of_walk {c : Char} (hc : c ∉ ['%', '*'])
    (hname : c = '.' ∨ c = '#' → headIs isNameStart rest = true)
    (hwalk : scan .name Compound.empty (c :: rest) = .ok s) :
    selector c rest = .ok ⟨s.kind c, s.size - 1⟩ := by
  have hstate : AtPart .name := .inl rfl
  by_cases hmark : c = '.' ∨ c = '#'
  · have hstart : Compound.empty.startPart c rest = some (.name, Compound.empty.grow) := by
      rcases hmark with rfl | rfl
      all_goals simp [startPart, hname]
    rcases hmark with rfl | rfl
    all_goals
      rw [hstate.scan_start rfl hstart] at hwalk
      simp [selector, hwalk]
  · simp only [List.mem_cons, List.not_mem_nil, or_false, not_or] at hc hmark
    simp [selector, hc, hmark, hwalk]

end Walk

/-! ### Colours -/

/-- Hexadecimal digits may stand in names. -/
lemma isNameChar_of_isHexDigit {c : Char} (h : isHexDigit c = true) : isNameChar c = true := by
  simp only [isHexDigit, Bool.or_eq_true, Bool.and_eq_true, decide_eq_true_eq] at h
  have hletter (h : 'A' ≤ c ∧ c ≤ 'Z' ∨ 'a' ≤ c ∧ c ≤ 'z') : c.isAlpha = true := by
    change (decide ('A' ≤ c ∧ c ≤ 'Z') || (decide ('a' ≤ c) && decide (c ≤ 'z'))) = true
    simpa only [Bool.or_eq_true, Bool.and_eq_true, decide_eq_true_eq] using h
  have halphanum : c.isAlpha = true ∨ c.isDigit = true := by
    rcases h with (hdigit | ⟨hfirst, hlast⟩) | ⟨hfirst, hlast⟩
    · exact .inr hdigit
    · exact .inl (hletter (.inr ⟨hfirst, Char.le_trans hlast (by decide)⟩))
    · exact .inl (hletter (.inl ⟨hfirst, Char.le_trans hlast (by decide)⟩))
  simp only [isNameChar, Char.isAlphanum, Bool.or_eq_true]
  exact .inl (.inl halphanum)

/-- A text that is not of one class all along leaves it at some first character. -/
lemma exists_first_not {p : Char → Bool} {cs : List Char} (h : ¬ ∀ c ∈ cs, p c = true) :
    ∃ run c more, cs = run ++ c :: more ∧ (∀ d ∈ run, p d = true) ∧ p c = false := by
  have hsplit := List.takeWhile_append_dropWhile (p := p) (l := cs)
  have hnot := List.head?_dropWhile_not p cs
  cases hdrop : cs.dropWhile p with
  | nil => exact absurd (List.dropWhile_eq_nil_iff.mp hdrop) h
  | cons c more =>
    rw [hdrop] at hsplit hnot
    exact ⟨cs.takeWhile p, c, more, hsplit.symm, fun d hd => List.mem_takeWhile_imp hd, hnot⟩

/-- The digits behind a number sign make a colour just if they are all of the name. -/
lemma color_digits (name : Name) {tail : List Char} (htail : headIs isNameChar tail = false) :
    let digits := runSize isHexDigit (name.chars ++ tail)
    ((digits == 3 || digits == 4 || digits == 6 || digits == 8) &&
      !headIs isNameChar ((name.chars ++ tail).drop digits)) = name.isColor := by
  by_cases hall : ∀ c ∈ name.chars, isHexDigit c = true
  · have hstop : headIs isHexDigit tail = false := by
      cases tail with
      | nil => rfl
      | cons c tail => exact Bool.eq_false_iff.mpr fun h =>
          Bool.eq_false_iff.mp htail (isNameChar_of_isHexDigit h)
    have hsize := runSize_append hall hstop
    simp only [hsize, List.drop_left, htail, Name.isColor, List.all_eq_true.mpr hall]
    grind
  · -- The run of digits stops inside of the name, which goes on behind it.
    have hnot : name.chars.all isHexDigit = false := by simpa using hall
    obtain ⟨run, c, more, hname, hrun, hc⟩ := exists_first_not hall
    have hnameChar : isNameChar c = true := name.isNameChar_chars c (by simp [hname])
    have hsize : runSize isHexDigit (name.chars ++ tail) = run.length := by
      rw [hname, List.append_assoc]
      exact runSize_append hrun hc
    have hgoes : headIs isNameChar ((name.chars ++ tail).drop run.length) = true := by
      rw [hname, List.append_assoc, List.drop_left]
      exact hnameChar
    simp only [hsize, hgoes, Bool.not_true, Bool.and_false, Name.isColor, hnot, Bool.false_and]

/-- Behind `&` a number sign before a name is a colour or starts a selector. -/
lemma hash_parent (name : Name) {tail : List Char} (htail : headIs isNameChar tail = false) :
    hash (some .parentReference) (name.chars ++ tail) =
      if name.isColor then .ok ⟨.color, runSize isHexDigit (name.chars ++ tail)⟩
      else selector '#' (name.chars ++ tail) := by
  have hstarts : selectorStarts (some .parentReference) ('#' :: (name.chars ++ tail)) = false := rfl
  have hname : headIs isNameStart (name.chars ++ tail) = true := name.isNameStart_first
  have hdigits := color_digits name htail
  simp only at hdigits
  simp only [hash, hstarts, hdigits, hname, Bool.false_eq_true, if_false, if_true]

/-! ### The first part -/

/-- A part starts with its mark. -/
lemma Suffix.exists_mark (p : Suffix) :
    ∃ c more, p.chars = c :: more ∧ c ∈ ['[', ':', '.', '#'] := by
  cases p with
  | bracketed content _ => exact ⟨'[', _, rfl, by decide⟩
  | named part hpart =>
    cases part with
    | state negated name =>
      cases negated with
      | false => exact ⟨':', _, rfl, by decide⟩
      | true => exact ⟨':', _, rfl, by decide⟩
    | bracketed _ => cases hpart
    | subcontrol _ => exact ⟨':', _, rfl, by decide⟩
    | className _ => exact ⟨'.', _, rfl, by decide⟩
    | idName _ => exact ⟨'#', _, rfl, by decide⟩

/-- No trivia stands where a part starts. -/
lemma startsTrivia_suffixes (first : Suffix) (others : List Suffix) (cs : List Char) :
    startsTrivia (suffixChars (first :: others) ++ cs) = false := by
  obtain ⟨c, more, hchars, hc⟩ := first.exists_mark
  rw [suffixChars, List.flatMap_cons, hchars]
  simp only [List.mem_cons, List.not_mem_nil, or_false] at hc
  rcases hc with rfl | rfl | rfl | rfl
  all_goals rfl

/-- No name goes on where parts or the end of the selector follow. -/
lemma headIs_isNameChar_suffixes (parts : List Suffix) {rest : List Char}
    (hrest : headIs endsSelector rest = true) :
    headIs isNameChar (suffixChars parts ++ rest) = false := by
  cases parts with
  | nil =>
    cases rest with
    | nil => rfl
    | cons c rest => exact isNameChar_of_endsSelector hrest
  | cons p parts =>
    obtain ⟨c, more, hchars, hc⟩ := p.exists_mark
    rw [suffixChars, List.flatMap_cons, hchars]
    simp only [List.mem_cons, List.not_mem_nil, or_false] at hc
    rcases hc with rfl | rfl | rfl | rfl
    all_goals rfl

variable {table : Keyword.Table} {attached : Bool} {rest : List Char}

/-- Behind `&` a text that starts so is dispatched to the walk over a selector, whatever part
follows. -/
structure Dispatches (table : Keyword.Table) (c : Char) (more : List Char) : Prop where
  mark : c ∉ ['%', '*']
  name (tail : List Char) : c = '.' ∨ c = '#' → headIs isNameStart (more ++ tail) = true
  lexeme_eq (tail : List Char) : headIs isNameChar tail = false →
    lexeme table (some .parentReference) true c (more ++ tail) = selector c (more ++ tail)

/-- What attaches is dispatched by its first character. -/
lemma exists_dispatches (table : Keyword.Table) {first : Suffix} (h : first.attaches = true) :
    ∃ c more, first.chars = c :: more ∧ Dispatches table c more := by
  -- A state or a sub-control is dispatched by what follows its first colon.
  have hcolon {p : Part} (hp : p.isState = true ∨ p.isSubcontrol = true) :
      ∃ c more, p.chars = c :: more ∧ Dispatches table c more := by
    obtain ⟨after, hafter, hstate⟩ := exists_startsState hp
    exact ⟨':', after, hafter, by decide, fun _ h => absurd h (by decide),
      fun tail _ => if_pos (hstate tail)⟩
  cases first with
  | bracketed _ _ => cases h
  | named part hpart =>
    cases part with
    | bracketed _ => cases hpart
    | state negated name => exact hcolon (p := .state negated name) (.inl rfl)
    | subcontrol name => exact hcolon (p := .subcontrol name) (.inr rfl)
    | className name =>
      have hname (tail : List Char) : headIs isNameStart (name.chars ++ tail) = true :=
        name.isNameStart_first
      exact ⟨'.', name.chars, rfl, by decide, fun tail _ => hname tail,
        fun tail _ => if_pos (hname tail)⟩
    | idName name =>
      have hcolor : name.isColor = false := by simpa [Suffix.attaches] using h
      refine ⟨'#', name.chars, rfl, by decide, fun _ _ => name.isNameStart_first,
        fun tail htail => ?_⟩
      have hhash := hash_parent name htail
      rw [hcolor] at hhash
      exact hhash

/-- Behind `&` no selector starts with a part that does not attach. -/
lemma kind_of_not_attaches {first : Suffix} (h : first.attaches = false) {c : Char}
    {more tail : List Char} (hchars : first.chars = c :: more)
    (htail : headIs isNameChar tail = false) {l : Lexeme}
    (hl : lexeme table (some .parentReference) attached c (more ++ tail) = .ok l) :
    l.kind.isSimpleSelector = false := by
  cases first with
  | bracketed content _ =>
    obtain ⟨rfl, -⟩ := List.cons.inj hchars
    cases hl
  | named part hpart =>
    cases part with
    | idName name =>
      obtain ⟨rfl, rfl⟩ := List.cons.inj hchars
      have hcolor : name.isColor = true := by simpa [Suffix.attaches] using h
      have hhash : hash (some .parentReference) (name.chars ++ tail) = .ok l := hl
      rw [hash_parent name htail, hcolor] at hhash
      cases hhash
      rfl
    | bracketed _ => cases hpart
    | _ => cases h

/-! ### Steps of the scanner -/

/-- A suffix that attaches is scanned as one selector. -/
lemma reads_suffix (table : Keyword.Table) {first : Suffix} (h : first.attaches = true)
    (others : List Suffix) (hrest : headIs endsSelector rest = true) :
    ∃ k : Kind, k.isSimpleSelector = true ∧
      Reads table (some .parentReference) (suffixChars (first :: others))
        [(k, String.ofList (suffixChars (first :: others)))] (some k) rest := by
  obtain ⟨c, more, hchars, hdispatches⟩ := exists_dispatches table h
  have hsplit : suffixChars (first :: others) = c :: (more ++ suffixChars others) := by
    rw [suffixChars, List.flatMap_cons, hchars]
    rfl
  have hstate : AtPart .name := .inl rfl
  obtain ⟨s, hsize, hwalk⟩ :=
    hstate.exists_scan_suffixes (s := Compound.empty) (first :: others) hrest
  rw [hsplit, List.cons_append, List.append_assoc] at hwalk
  have hlexeme : lexeme table (some .parentReference) true c
      (more ++ suffixChars others ++ rest) =
      .ok ⟨s.kind c, (more ++ suffixChars others).length⟩ := by
    have hmore : s.size - 1 = (more ++ suffixChars others).length := by
      rw [hsize, hsplit, List.length_cons]
      exact Nat.add_sub_cancel_left 0 _
    rw [List.append_assoc, hdispatches.lexeme_eq _ (headIs_isNameChar_suffixes others hrest),
      selector_of_walk hdispatches.mark (hdispatches.name _) hwalk, hmore]
  have hstart := startsTrivia_suffixes first others rest
  rw [hsplit] at hstart ⊢
  exact ⟨s.kind c, isSimpleSelector_kind s c,
    reads_lexeme .nil hstart (.inr (.inl rfl)) hlexeme⟩

/-- The first token of a run over a text that starts without trivia is its first lexeme. -/
lemma exists_lexeme_of_run {s : Scanner} {t : Token} {after : List Token} {c : Char}
    {cs : List Char} (h : (s.run table).tokens = t :: after) (hrest : s.rest = c :: cs)
    (hstart : startsTrivia (c :: cs) = false) :
    ∃ l, lexeme table s.previous true c cs = .ok l ∧ l.kind = t.kind := by
  obtain ⟨s', hnext, -⟩ := next_of_run h
  obtain ⟨cut, hcut, htake⟩ := next_eq_ok hnext
  obtain ⟨rfl, -⟩ := Prod.mk.inj htake
  have hnone : triviaSize none s.rest = 0 := by
    rw [hrest]
    exact triviaSize_eq_zero hstart
  rcases cut_cases hcut with ⟨hjoins, -⟩ | ⟨-, hnil⟩ | ⟨a, rest, l, hsplit, hl, rfl⟩
  · simp [joinsSelectors, hnone] at hjoins
  · rw [hnone, List.drop_zero, hrest] at hnil
    cases hnil
  · rw [hnone, List.drop_zero, hrest] at hsplit
    obtain ⟨rfl, rfl⟩ := List.cons.inj hsplit
    rw [hnone] at hl
    exact ⟨l, hl, rfl⟩

/-- A selector behind `&` starts with a part that attaches. -/
lemma attaches_of_run {offset : Nat} {first : Suffix} {others : List Suffix} {t : Token}
    {after : List Token} (hrest : headIs endsSelector rest = true)
    (h : ((Scanner.mk offset (some .parentReference)
      (suffixChars (first :: others) ++ rest)).run table).tokens = t :: after)
    (hk : t.kind.isSimpleSelector = true) : first.attaches = true := by
  obtain ⟨c, more, hchars, -⟩ := first.exists_mark
  have hsplit : suffixChars (first :: others) ++ rest =
      c :: (more ++ (suffixChars others ++ rest)) := by
    simp [suffixChars, hchars]
  have hstart := startsTrivia_suffixes first others rest
  rw [hsplit] at hstart
  obtain ⟨l, hl, hkind⟩ := exists_lexeme_of_run h hsplit hstart
  by_contra hnot
  have hother := kind_of_not_attaches (Bool.eq_false_iff.mpr hnot) hchars
    (headIs_isNameChar_suffixes others hrest) hl
  rw [hkind, hk] at hother
  cases hother

/-- The suffix behind a reference to the parent is one selector token before the brace just if its
first part is no attribute and no number sign that makes a colour. -/
theorem reads_suffix_iff (table : Keyword.Table) (first : Suffix) (others : List Suffix)
    (previous : Option Kind) (rest : List Char) :
    (∃ k : Kind, k.isSimpleSelector = true ∧
      Reads table previous ('&' :: (suffixChars (first :: others) ++ [' ', '{']))
        [(.parentReference, "&"), (k, String.ofList (suffixChars (first :: others))),
          (.leftBrace, "\x7b")] (some .leftBrace) rest) ↔
      first.attaches = true := by
  have hparent (cs : List Char) : Reads table previous ([] ++ ['&']) [(.parentReference, "&")]
      (some .parentReference) cs :=
    reads_lexeme .nil rfl (.inr (.inl rfl)) rfl
  constructor
  · rintro ⟨k, hk, hreads⟩
    obtain ⟨ts, hts, hrun⟩ := hreads 0
    obtain ⟨us, hus, hrun'⟩ := hparent (suffixChars (first :: others) ++ [' ', '{'] ++ rest) 0
    -- The second token of the whole run is the first one behind `&`.
    have htokens := congrArg Tokenization.tokens (hrun.symm.trans hrun')
    obtain ⟨_, _, rfl, -, hts⟩ := List.map_eq_cons_iff.mp hts
    obtain ⟨t, _, rfl, ht, -⟩ := List.map_eq_cons_iff.mp hts
    obtain ⟨_, rfl, -⟩ := List.map_eq_singleton_iff.mp hus
    have hsuffix := (List.cons.inj htokens).2.symm
    rw [List.append_assoc] at hsuffix
    have hkind : t.kind = k := congrArg Prod.fst ht
    exact attaches_of_run rfl hsuffix (by rw [hkind, hk])
  · intro h
    obtain ⟨k, hk, hsuffix⟩ : ∃ k : Kind, k.isSimpleSelector = true ∧
        Reads table (some .parentReference) (suffixChars (first :: others)) _ (some k)
          ([' '] ++ ['{'] ++ rest) :=
      reads_suffix table h others rfl
    have hbrace : Reads table (some k) ([' '] ++ ['{']) [(.leftBrace, "\x7b")]
        (some .leftBrace) rest :=
      reads_lexeme (.blank rfl .nil) rfl (.inr (.inr rfl)) rfl
    exact ⟨k, hk, (hparent _).trans (hsuffix.trans hbrace)⟩

/-- A type selector takes an attribute and a short id, but a reference to the parent does not: an
attribute cannot be scanned behind it, and the id is a colour. -/
theorem suffixes_not_attached :
    ((tokenize .builtin "T[x] \x7b").tokens.map (fun t => (t.kind, t.text)) =
        [(.attributeSelector, "T[x]"), (.leftBrace, "\x7b")] ∧
      (tokenize .builtin "&[x] \x7b").all = .error (.unknown "[" ⟨1, 2⟩)) ∧
    (tokenize .builtin "T#abc \x7b").tokens.map (fun t => (t.kind, t.text)) =
        [(.typeSelector, "T#abc"), (.leftBrace, "\x7b")] ∧
      (tokenize .builtin "&#abc \x7b").tokens.map (fun t => (t.kind, t.text)) =
        [(.parentReference, "&"), (.color, "#abc"), (.leftBrace, "\x7b")] := by
  decide +kernel

end Header

end StyleSheet.Token

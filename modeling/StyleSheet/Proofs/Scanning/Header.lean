import StyleSheet.Proofs.Scanning.Trivia
import StyleSheet.Token.Lexeme

/-!
# Headers of rulesets

A header is made of compound selectors with something between them.  Its forms carry their own
well-formedness, so that each is a header that can be written down, and they say without a walk over
characters which tokens are meant.

Two walks have to agree on what a header is.  The look ahead passes over every form
(`headerAhead_later`), and the walk over a compound selector passes over all its parts and stops
where the selector ends (`scan_parts`).
-/

namespace StyleSheet.Token

namespace Header

/-! ### Forms -/

structure Name where
  first : Char
  more : List Char
  isNameStart_first : isNameStart first = true
  isNameChar_more : ∀ c ∈ more, isNameChar c = true

def Name.chars (n : Name) : List Char := n.first :: n.more

/-- A piece of what stands between the brackets of an attribute. -/
inductive Piece where
  | plain (c : Char) (h : isSelectorChar c = true) (hopen : c ≠ '[') (hclose : c ≠ ']')
  | quoted (quote : Char) (content : List Char) (hquote : quote = '"' ∨ quote = '\'')
    (h : quote ∉ content)

def Piece.chars : Piece → List Char
  | plain c _ _ _ => [c]
  | quoted quote content _ _ => quote :: (content ++ [quote])

/-- What can follow the head of a compound selector. -/
inductive Part where
  | bracketed (pieces : List Piece)
  | state (negated : Bool) (name : Name)
  | subcontrol (name : Name)
  | className (name : Name)
  | idName (name : Name)

namespace Part

def chars : Part → List Char
  | bracketed pieces => '[' :: (pieces.flatMap Piece.chars ++ [']'])
  | state false name => ':' :: name.chars
  | state true name => ':' :: '!' :: name.chars
  | subcontrol name => ':' :: ':' :: name.chars
  | className name => '.' :: name.chars
  | idName name => '#' :: name.chars

@[simp] def isAttribute : Part → Bool
  | bracketed _ => true
  | _ => false

@[simp] def isState : Part → Bool
  | state .. => true
  | _ => false

@[simp] def isSubcontrol : Part → Bool
  | subcontrol _ => true
  | _ => false

end Part

/-- The kind of a compound selector: a sub-control is stronger than a state, a state is stronger
than an attribute, and without them it is the kind of the head. -/
def strongest (parts : List Part) (plain : Kind) : Kind :=
  if parts.any Part.isSubcontrol then .subcontrolSelector
  else if parts.any Part.isState then .stateSelector
  else if parts.any Part.isAttribute then .attributeSelector
  else plain

inductive Head where
  /-- A name that is no truth value. -/
  | typeName (name : Name) (htrue : String.ofList name.chars ≠ "true")
    (hfalse : String.ofList name.chars ≠ "false")
  | universal
  | className (name : Name)
  | idName (name : Name)
  | placeholder (name : Name)

namespace Head

def chars : Head → List Char
  | typeName name _ _ => name.chars
  | universal => ['*']
  | className name => '.' :: name.chars
  | idName name => '#' :: name.chars
  | placeholder name => '%' :: name.chars

def kind : Head → Kind
  | typeName .. | universal => .typeSelector
  | className _ => .classSelector
  | idName _ => .idSelector
  | placeholder _ => .placeholderSelector

end Head

/-- A compound selector, or a reference to the parent with parts of which the first starts with a
colon. -/
inductive Selector where
  | compound (head : Head) (parts : List Part)
  | parent (parts : List Part)
    (h : ∀ p ∈ parts.head?, p.isState = true ∨ p.isSubcontrol = true)

namespace Selector

def chars : Selector → List Char
  | compound head parts => head.chars ++ parts.flatMap Part.chars
  | parent parts _ => '&' :: parts.flatMap Part.chars

/-- The tokens of a selector; the parts of a parent reference are a token of their own. -/
def tokens : Selector → List (Kind × String)
  | compound head parts =>
    [(strongest parts head.kind, String.ofList (head.chars ++ parts.flatMap Part.chars))]
  | parent [] _ => [(.parentReference, "&")]
  | parent (p :: parts) _ =>
    [(.parentReference, "&"),
      (strongest (p :: parts) .typeSelector, String.ofList ((p :: parts).flatMap Part.chars))]

end Selector

/-- What stands between two selectors: trivia alone, or a mark with trivia around it. -/
inductive Separator where
  | descendant (gap : List Char) (h : Trivia gap) (hne : gap ≠ [])
  | child (before after : List Char) (hbefore : Trivia before) (hafter : Trivia after)
  | comma (before after : List Char) (hbefore : Trivia before) (hafter : Trivia after)

namespace Separator

def chars : Separator → List Char
  | descendant gap _ _ => gap
  | child before after _ _ => before ++ '>' :: after
  | comma before after _ _ => before ++ ',' :: after

def token : Separator → Kind × String
  | descendant gap _ _ => (.descendantCombinator, String.ofList gap)
  | child .. => (.childCombinator, ">")
  | comma .. => (.comma, ",")

end Separator

end Header

/-- Selectors with separators between them. -/
structure Header where
  first : Header.Selector
  later : List (Header.Separator × Header.Selector)

namespace Header

def laterChars (later : List (Separator × Selector)) : List Char :=
  later.flatMap (fun p => p.1.chars ++ p.2.chars)

def laterTokens (later : List (Separator × Selector)) : List (Kind × String) :=
  later.flatMap (fun p => p.1.token :: p.2.tokens)

def chars (h : Header) : List Char := h.first.chars ++ laterChars h.later

/-- The tokens that a header is meant to have. -/
def tokens (h : Header) : List (Kind × String) := h.first.tokens ++ laterTokens h.later

/-! ### The look ahead -/

/-- Characters of names may stand in selectors. -/
lemma isSelectorChar_of_isNameChar {c : Char} (h : isNameChar c = true) :
    isSelectorChar c = true := by
  simp [isSelectorChar, h]

/-- What starts a name may go on with it. -/
lemma isNameChar_of_isNameStart {c : Char} (h : isNameStart c = true) : isNameChar c = true := by
  simp only [isNameStart, Bool.or_eq_true] at h
  rcases h with h | h
  · simp [isNameChar, Char.isAlphanum, h]
  · simp only [isNameChar, h, Bool.or_true]

/-- A character of a class differs from each one outside of it. -/
lemma ne_of_class {p : Char → Bool} {c d : Char} (h : p c = true) (hd : p d = false) : c ≠ d := by
  rintro rfl
  exact absurd h (by simp [hd])

/-- All characters of a name are such. -/
lemma Name.isNameChar_chars (n : Name) : ∀ c ∈ n.chars, isNameChar c = true :=
  List.forall_mem_cons.mpr ⟨isNameChar_of_isNameStart n.isNameStart_first, n.isNameChar_more⟩

section Ahead

variable {depth : Nat} {c : Char} {cs rest : List Char}

/-- Only a slash opens a comment. -/
lemma opens_eq_none (h : c ≠ '/') : Comment.opens c rest = none := by
  simp [Comment.opens, h]

/-- The look-ahead passes a character of a selector. -/
lemma headerAhead_cons (h : isSelectorChar c = true) (hopen : c ≠ '[') (hclose : c ≠ ']') :
    headerAhead (.plain depth) (c :: rest) = headerAhead (.plain depth) rest := by
  have hslash : c ≠ '/' := ne_of_class h (by decide)
  have hbrace : c ≠ '{' := ne_of_class h (by decide)
  have hdouble : c ≠ '"' := ne_of_class h (by decide)
  have hsingle : c ≠ '\'' := ne_of_class h (by decide)
  have hopens : (if depth = 0 then Comment.opens c rest else none) = none := by
    rw [opens_eq_none hslash, ite_self]
  rw [headerAhead, hopens]
  simp [hbrace, hopen, hclose, hdouble, hsingle, h]

/-- The look-ahead passes characters of names. -/
lemma headerAhead_names (h : ∀ c ∈ cs, isNameChar c = true) :
    headerAhead (.plain depth) (cs ++ rest) = headerAhead (.plain depth) rest := by
  induction cs with
  | nil => rfl
  | cons c cs ih =>
    obtain ⟨hc, hcs⟩ := List.forall_mem_cons.mp h
    rw [List.cons_append, headerAhead_cons (isSelectorChar_of_isNameChar hc)
      (ne_of_class hc (by decide)) (ne_of_class hc (by decide)), ih hcs]

/-- The look-ahead passes a name. -/
lemma headerAhead_name (n : Name) :
    headerAhead (.plain depth) (n.chars ++ rest) = headerAhead (.plain depth) rest :=
  headerAhead_names n.isNameChar_chars

/-- The marks of selectors, parts and separators. -/
lemma headerAhead_mark (h : c ∈ [':', '!', '.', '#', '*', '%', '&', '>', ',']) :
    headerAhead (.plain depth) (c :: rest) = headerAhead (.plain depth) rest := by
  simp only [List.mem_cons, List.not_mem_nil, or_false] at h
  rcases h with rfl | rfl | rfl | rfl | rfl | rfl | rfl | rfl | rfl
  all_goals exact headerAhead_cons (by decide) (by decide) (by decide)

/-- The look-ahead passes a quotation. -/
lemma headerAhead_quoted {quote : Char} (h : quote ∉ cs) :
    headerAhead (.quoted depth quote) (cs ++ quote :: rest) = headerAhead (.plain depth) rest := by
  induction cs with
  | nil => simp [headerAhead]
  | cons c cs ih =>
    obtain ⟨hc, hcs⟩ := not_or.mp (mt List.mem_cons.mpr h)
    simp [headerAhead, Ne.symm hc, ih hcs]

/-- The look-ahead passes a piece of an attribute. -/
lemma headerAhead_piece (p : Piece) :
    headerAhead (.plain 1) (p.chars ++ rest) = headerAhead (.plain 1) rest := by
  cases p with
  | plain c h hopen hclose => exact headerAhead_cons h hopen hclose
  | quoted quote content hquote h =>
    have hstart : headerAhead (.plain 1) (quote :: (content ++ quote :: rest)) =
        headerAhead (.quoted 1 quote) (content ++ quote :: rest) := by
      rcases hquote with rfl | rfl
      · rfl
      · rfl
    simp only [Piece.chars, List.cons_append, List.append_assoc, List.nil_append]
    rw [hstart, headerAhead_quoted h]

/-- The look-ahead passes the pieces of an attribute. -/
lemma headerAhead_pieces (pieces : List Piece) :
    headerAhead (.plain 1) (pieces.flatMap Piece.chars ++ rest) = headerAhead (.plain 1) rest := by
  induction pieces with
  | nil => rfl
  | cons p pieces ih => rw [List.flatMap_cons, List.append_assoc, headerAhead_piece, ih]

/-- The look-ahead passes a part of a selector. -/
lemma headerAhead_part (p : Part) :
    headerAhead (.plain 0) (p.chars ++ rest) = headerAhead (.plain 0) rest := by
  cases p with
  | bracketed pieces =>
    have hopen (cs : List Char) : headerAhead (.plain 0) ('[' :: cs) = headerAhead (.plain 1) cs :=
      rfl
    have hclose : headerAhead (.plain 1) (']' :: rest) = headerAhead (.plain 0) rest := rfl
    simp only [Part.chars, List.cons_append, List.append_assoc, List.nil_append]
    rw [hopen, headerAhead_pieces, hclose]
  | state negated name =>
    cases negated with
    | false =>
      rw [Part.chars, List.cons_append, headerAhead_mark (by decide), headerAhead_name]
    | true =>
      rw [Part.chars, List.cons_append, headerAhead_mark (by decide), List.cons_append,
        headerAhead_mark (by decide), headerAhead_name]
  | subcontrol name =>
    rw [Part.chars, List.cons_append, headerAhead_mark (by decide), List.cons_append,
      headerAhead_mark (by decide), headerAhead_name]
  | className name =>
    rw [Part.chars, List.cons_append, headerAhead_mark (by decide), headerAhead_name]
  | idName name =>
    rw [Part.chars, List.cons_append, headerAhead_mark (by decide), headerAhead_name]

/-- The look-ahead passes the parts of a selector. -/
lemma headerAhead_parts (parts : List Part) :
    headerAhead (.plain 0) (parts.flatMap Part.chars ++ rest) = headerAhead (.plain 0) rest := by
  induction parts with
  | nil => rfl
  | cons p parts ih => rw [List.flatMap_cons, List.append_assoc, headerAhead_part, ih]

/-- The look-ahead passes the head of a selector. -/
lemma headerAhead_head (h : Head) :
    headerAhead (.plain 0) (h.chars ++ rest) = headerAhead (.plain 0) rest := by
  cases h with
  | typeName name _ _ => exact headerAhead_name name
  | universal => exact headerAhead_mark (by decide)
  | className name =>
    rw [Head.chars, List.cons_append, headerAhead_mark (by decide), headerAhead_name]
  | idName name =>
    rw [Head.chars, List.cons_append, headerAhead_mark (by decide), headerAhead_name]
  | placeholder name =>
    rw [Head.chars, List.cons_append, headerAhead_mark (by decide), headerAhead_name]

/-- The look-ahead passes a selector. -/
lemma headerAhead_selector (sel : Selector) :
    headerAhead (.plain 0) (sel.chars ++ rest) = headerAhead (.plain 0) rest := by
  cases sel with
  | compound head parts =>
    rw [Selector.chars, List.append_assoc, headerAhead_head, headerAhead_parts]
  | parent parts _ =>
    rw [Selector.chars, List.cons_append, headerAhead_mark (by decide),
      headerAhead_parts]

/-- The look ahead as a walk that stands between tokens or in a comment. -/
private def ahead : Option Comment → List Char → Bool
  | none => headerAhead (.plain 0)
  | some k => headerAhead (.comment k)

/-- The look-ahead walks through a comment like any other walk. -/
private lemma walks_ahead : Comment.Walks ahead id := by
  intro k c rest
  cases hnext : k.next c rest with
  | none => simp [ahead, headerAhead, hnext]
  | some k' => simp [ahead, headerAhead, hnext]

/-- Trivia outside of brackets is passed over. -/
lemma headerAhead_trivia {gap : List Char} (h : Trivia gap) :
    headerAhead (.plain 0) (gap ++ rest) = headerAhead (.plain 0) rest := by
  induction h with
  | nil => rfl
  | @blank c cs hc _ ih =>
    rw [List.cons_append, headerAhead_cons (by simp [isSelectorChar, hc])
      (ne_of_class hc (by decide)) (ne_of_class hc (by decide)), ih]
  | @line body cs hbody _ ih =>
    have hwalk := walks_ahead.line_end hbody (cs ++ rest)
    rw [Function.iterate_id] at hwalk
    have hstart : headerAhead (.plain 0) ('/' :: '/' :: (body ++ '\n' :: (cs ++ rest))) =
        ahead (some .line) (body ++ '\n' :: (cs ++ rest)) := rfl
    simp only [List.cons_append, List.append_assoc]
    rw [hstart, hwalk]
    exact ih
  | @block body cs hopen hbody _ ih =>
    have hwalk := walks_ahead.block_end hbody (cs ++ rest)
    rw [Function.iterate_id] at hwalk
    obtain ⟨text, htext⟩ := List.head?_eq_some_iff.mp (head?_block hopen ('/' :: (cs ++ rest)))
    have hstart : headerAhead (.plain 0) ('/' :: (body ++ '*' :: '/' :: (cs ++ rest))) =
        ahead (some .block) (body ++ '*' :: '/' :: (cs ++ rest)) := by
      rw [htext]
      rfl
    simp only [List.cons_append, List.append_assoc]
    rw [hstart, hwalk]
    exact ih

/-- No header follows in a comment that is open at the end. -/
lemma headerAhead_openComment (h : OpenComment cs) : headerAhead (.plain 0) cs = false := by
  cases h with
  | @line body hbody =>
    have hwalk := walks_ahead.line_append hbody []
    rw [List.append_nil, Function.iterate_id] at hwalk
    exact hwalk
  | @block body hbody =>
    have hwalk : ahead (some .block) ('*' :: body ++ []) = _ :=
      walks_ahead.block_append (by simpa using hbody)
    rw [List.append_nil, Function.iterate_id] at hwalk
    exact hwalk

/-- The look-ahead passes what separates two selectors. -/
lemma headerAhead_separator (sep : Separator) :
    headerAhead (.plain 0) (sep.chars ++ rest) = headerAhead (.plain 0) rest := by
  cases sep with
  | descendant gap h _ => exact headerAhead_trivia h
  | child before after hbefore hafter =>
    rw [Separator.chars, List.append_assoc, headerAhead_trivia hbefore, List.cons_append,
      headerAhead_mark (by decide), headerAhead_trivia hafter]
  | comma before after hbefore hafter =>
    rw [Separator.chars, List.append_assoc, headerAhead_trivia hbefore, List.cons_append,
      headerAhead_mark (by decide), headerAhead_trivia hafter]

/-- The look-ahead passes all later selectors of a header. -/
lemma headerAhead_later (later : List (Separator × Selector)) :
    headerAhead (.plain 0) (laterChars later ++ rest) = headerAhead (.plain 0) rest := by
  induction later with
  | nil => rfl
  | cons p later ih =>
    rw [laterChars, List.flatMap_cons, List.append_assoc, List.append_assoc,
      headerAhead_separator, headerAhead_selector]
    exact ih

end Ahead

/-! ### The walk over a compound selector -/

/-- Characters that end a selector. -/
def endsSelector (c : Char) : Bool := isBlank c || c == '/' || c == '>' || c == ',' || c == '{'

/-- What ends a selector is not part of a name. -/
lemma isNameChar_of_endsSelector {c : Char} (h : endsSelector c = true) : isNameChar c = false := by
  simp only [endsSelector, isBlank, Bool.or_eq_true, beq_iff_eq] at h
  rcases h with ((((((rfl | rfl) | rfl) | rfl) | rfl) | rfl) | rfl) | rfl
  all_goals decide

section Walk

open Compound

variable {s : Compound} {rest : List Char} {state : CompoundState}

/-- A compound selector with so many characters more. -/
def longer (s : Compound) (n : Nat) : Compound := { s with size := s.size + n }

/-- One more character counts as one. -/
private lemma longer_grow (n : Nat) : longer s.grow n = longer s (n + 1) := by
  simp only [longer, grow, Nat.add_assoc, Nat.add_comm 1]

/-- A walk over a name passes characters of names. -/
private lemma scan_names {cs : List Char} (h : ∀ c ∈ cs, isNameChar c = true) :
    scan .name s (cs ++ rest) = scan .name (longer s cs.length) rest := by
  induction cs generalizing s with
  | nil => rfl
  | cons c cs ih =>
    obtain ⟨hc, hcs⟩ := List.forall_mem_cons.mp h
    rw [List.cons_append, scan, if_pos hc, ih hcs, longer_grow, List.length_cons]

/-- A walk over an attribute passes a quotation. -/
lemma scan_quoted {opened : Nat} {quote : Char} {cs : List Char} (h : quote ∉ cs) :
    scan (.bracket opened (some quote)) s (cs ++ quote :: rest) =
      scan (.bracket opened none) (longer s (cs.length + 1)) rest := by
  induction cs generalizing s with
  | nil => simp [scan, longer, grow]
  | cons c cs ih =>
    obtain ⟨hc, hcs⟩ := not_or.mp (mt List.mem_cons.mpr h)
    have hne : (c == quote) = false := by simpa using Ne.symm hc
    rw [List.cons_append, scan, hne, if_neg (by decide), ih hcs, longer_grow, List.length_cons]

/-- A walk over an attribute passes a piece of it. -/
private lemma scan_piece {opened : Nat} (p : Piece) :
    scan (.bracket opened none) s (p.chars ++ rest) =
      scan (.bracket opened none) (longer s p.chars.length) rest := by
  cases p with
  | plain c h hopen hclose =>
    have hdouble : c ≠ '"' := ne_of_class h (by decide)
    have hsingle : c ≠ '\'' := ne_of_class h (by decide)
    simp [Piece.chars, scan, hclose, hdouble, hsingle, longer, grow]
  | quoted quote content hquote h =>
    have hstart : scan (.bracket opened none) s (quote :: (content ++ quote :: rest)) =
        scan (.bracket opened (some quote)) s.grow (content ++ quote :: rest) := by
      rcases hquote with rfl | rfl
      · rfl
      · rfl
    simp only [Piece.chars, List.cons_append, List.append_assoc, List.nil_append]
    rw [hstart, scan_quoted h, longer_grow]
    simp

/-- A walk over an attribute passes its pieces. -/
private lemma scan_pieces {opened : Nat} (pieces : List Piece) :
    scan (.bracket opened none) s (pieces.flatMap Piece.chars ++ rest) =
      scan (.bracket opened none) (longer s (pieces.flatMap Piece.chars).length) rest := by
  induction pieces generalizing s with
  | nil => rfl
  | cons p pieces ih =>
    rw [List.flatMap_cons, List.append_assoc, scan_piece, ih]
    simp only [longer, List.length_append, Nat.add_assoc]

/-- Where a part can start. -/
def AtPart (state : CompoundState) : Prop := state = .name ∨ state = .boundary

/-- Where a part of a selector may start, a walk goes on with the part. -/
lemma AtPart.scan_start {c : Char} {state' : CompoundState} {s' : Compound}
    (hstate : AtPart state) (hc : isNameChar c = false)
    (h : s.startPart c rest = some (state', s')) :
    scan state s (c :: rest) = scan state' s' rest := by
  rcases hstate with rfl | rfl
  · simp [scan, hc, h]
  · simp [scan, h]

/-- The walk stops at a character that ends the selector. -/
lemma AtPart.scan_stop (hstate : AtPart state) (h : headIs endsSelector rest = true) :
    scan state s rest = .ok s := by
  cases rest with
  | nil => cases h
  | cons c rest =>
    have hname : isNameChar c = false := isNameChar_of_endsSelector h
    have hne {d : Char} (hd : endsSelector d = false) : c ≠ d := ne_of_class h hd
    have hstart : s.startPart c rest = none := by
      simp [startPart, hne (d := '[') (by decide), hne (d := ':') (by decide),
        hne (d := '.') (by decide), hne (d := '#') (by decide)]
    rcases hstate with rfl | rfl
    · simp [scan, hname, hstart]
    · simp [scan, hstart]

/-- A colon before a name starts a state. -/
private lemma startPart_state {d : Char} (hd : isNameStart d = true) :
    s.startPart ':' (d :: rest) = some (.name, { s.grow with hasState := true }) := by
  have hcolon : d ≠ ':' := ne_of_class hd (by decide)
  have hnot : d ≠ '!' := ne_of_class hd (by decide)
  rw [startPart, if_neg (by decide), if_pos (by decide)]
  · exact if_pos hd
  · exact fun _ _ h _ => hcolon h
  · exact hnot

/-- The compound selector with one part more. -/
def withPart (s : Compound) (p : Part) : Compound :=
  ⟨s.size + p.chars.length, s.hasAttribute || p.isAttribute, s.hasState || p.isState,
    s.hasSubcontrol || p.isSubcontrol⟩

/-- The walk passes over a part and stands where the next one can start. -/
lemma AtPart.scan_part (hstate : AtPart state) (p : Part) :
    ∃ state', AtPart state' ∧
      scan state s (p.chars ++ rest) = scan state' (withPart s p) rest := by
  -- the second mark of a part with two marks is passed without a look at it
  have hmark (t : Compound) (c : Char) (cs : List Char) :
      scan .mark t (c :: cs) = scan .name t.grow cs := rfl
  cases p with
  | bracketed pieces =>
    refine ⟨.boundary, .inr rfl, ?_⟩
    have hstart (cs : List Char) : s.startPart '[' cs = some (.bracket s.size none, s.grow) := rfl
    simp only [Part.chars, List.cons_append, List.append_assoc, List.nil_append]
    rw [hstate.scan_start (by decide) (hstart _), scan_pieces, longer_grow]
    simp [scan, longer, withPart, grow, Part.chars, Nat.add_assoc]
  | state negated name =>
    refine ⟨.name, .inl rfl, ?_⟩
    cases negated with
    | false =>
      have hstart : s.startPart ':' (name.chars ++ rest) = _ :=
        startPart_state name.isNameStart_first
      rw [Part.chars, List.cons_append, hstate.scan_start (by decide) hstart,
        scan_names name.isNameChar_chars]
      refine congrArg (scan .name · rest) ?_
      simp [longer, withPart, grow, Part.chars]
      omega
    | true =>
      have hstart (cs : List Char) :
          s.startPart ':' ('!' :: cs) = some (.mark, { s.grow with hasState := true }) := rfl
      rw [Part.chars, List.cons_append, List.cons_append,
        hstate.scan_start (by decide) (hstart _), hmark, scan_names name.isNameChar_chars]
      refine congrArg (scan .name · rest) ?_
      simp [longer, withPart, grow, Part.chars]
      omega
  | subcontrol name =>
    refine ⟨.name, .inl rfl, ?_⟩
    have hstart : s.startPart ':' (':' :: (name.chars ++ rest)) =
        some (.mark, { s.grow with hasSubcontrol := true }) := by
      simp [startPart, Name.chars, name.isNameStart_first]
    rw [Part.chars, List.cons_append, List.cons_append, hstate.scan_start (by decide) hstart,
      hmark, scan_names name.isNameChar_chars]
    refine congrArg (scan .name · rest) ?_
    simp [longer, withPart, grow, Part.chars]
    omega
  | className name =>
    refine ⟨.name, .inl rfl, ?_⟩
    have hstart : s.startPart '.' (name.chars ++ rest) = some (.name, s.grow) := by
      simp [startPart, Name.chars, headIs, name.isNameStart_first]
    rw [Part.chars, List.cons_append, hstate.scan_start (by decide) hstart,
      scan_names name.isNameChar_chars]
    refine congrArg (scan .name · rest) ?_
    simp [longer, withPart, grow, Part.chars]
    omega
  | idName name =>
    refine ⟨.name, .inl rfl, ?_⟩
    have hstart : s.startPart '#' (name.chars ++ rest) = some (.name, s.grow) := by
      simp [startPart, Name.chars, headIs, name.isNameStart_first]
    rw [Part.chars, List.cons_append, hstate.scan_start (by decide) hstart,
      scan_names name.isNameChar_chars]
    refine congrArg (scan .name · rest) ?_
    simp [longer, withPart, grow, Part.chars]
    omega

/-- The walk passes over all parts and stops behind them. -/
private lemma AtPart.scan_parts (hstate : AtPart state) (parts : List Part)
    (h : headIs endsSelector rest = true) :
    scan state s (parts.flatMap Part.chars ++ rest) =
      .ok ⟨s.size + (parts.flatMap Part.chars).length, s.hasAttribute || parts.any Part.isAttribute,
        s.hasState || parts.any Part.isState, s.hasSubcontrol || parts.any Part.isSubcontrol⟩ := by
  induction parts generalizing s state with
  | nil =>
    rw [List.flatMap_nil, List.nil_append, hstate.scan_stop h]
    simp
  | cons p parts ih =>
    obtain ⟨state', hstate', hpart⟩ : ∃ state', AtPart state' ∧
        scan state s (p.chars ++ (parts.flatMap Part.chars ++ rest)) = _ := hstate.scan_part p
    rw [List.flatMap_cons, List.append_assoc, hpart, ih hstate']
    simp only [withPart, List.length_append, List.any_cons, Nat.add_assoc, Bool.or_assoc]

/-- The walk over the names and parts of a selector that has `n` characters so far. -/
lemma scan_parts {names : List Char} (n : Nat) (hnames : ∀ c ∈ names, isNameChar c = true)
    (parts : List Part) (h : headIs endsSelector rest = true) :
    scan .name ⟨n, false, false, false⟩ (names ++ (parts.flatMap Part.chars ++ rest)) =
      .ok ⟨n + names.length + (parts.flatMap Part.chars).length, parts.any Part.isAttribute,
        parts.any Part.isState, parts.any Part.isSubcontrol⟩ := by
  have hstate : AtPart .name := .inl rfl
  rw [scan_names hnames, hstate.scan_parts parts h]
  simp [longer]

/-- The kind of a walked selector is that of its strongest part. -/
lemma kind_eq_strongest (n : Nat) (parts : List Part) (c : Char) :
    Compound.kind ⟨n, parts.any Part.isAttribute, parts.any Part.isState,
      parts.any Part.isSubcontrol⟩ c = strongest parts (Compound.empty.kind c) := rfl

end Walk

end Header

end StyleSheet.Token

import StyleSheet.Proofs.Bytes.Cursor
import StyleSheet.Proofs.Scanning.HeaderTokens

/-!
# Trivia and headers between bytes

Trivia and the look ahead for a header are walked over byte by byte.  Both search for the end of a
block comment in the text that is left, which is a cut.  From a place between characters no cut of
theirs fails, and they find what `triviaSize` and `headerAhead` find (`skipTrivia?_between`,
`headerAhead?_between`).

Inside of a comment or a quote a walk passes over bytes of all kinds.  A comment is passed over in
the same way by both walks, which is proved once (`SkipsComment`).
-/

namespace StyleSheet

open Text

namespace Token

namespace ByteCursor

/-! ### Walks -/

/-- The number of bytes before the first `*/`. -/
def closerOffset? : List Char → Option Nat
  | [] => none
  | a :: rest =>
    if a == '*' && rest.head? == some '/' then some 0
    else (closerOffset? rest).map (a.utf8Size + ·)

/-- The comment that opens at the place. -/
def comment? (c : ByteCursor) : Option Comment :=
  if c.peek 0 == '/' && c.peek 1 == '/' then some .line
  else if c.peek 0 == '/' && c.peek 1 == '*' then some .block
  else none

/-- The place behind the next `*/`, or the end. -/
def skipBlock? (c : ByteCursor) : Option ByteCursor :=
  c.rest?.map fun rest =>
    match closerOffset? rest with
    | some offset => c.advance (offset + 2)
    | none => ⟨c.source, byteLength c.source⟩

/-- The place where a comment is over.  The line feed that ends one does not belong to it. -/
def skipComment? (c : ByteCursor) : Comment → Option ByteCursor
  | .line => some (c.eatWhile (· != '\n'))
  | .block | .closing => c.skipBlock?

section Remaining

variable {c d : ByteCursor}

/-- A comment starts with a slash. -/
lemma exists_left_of_comment? {k : Comment} (h : c.comment? = some k) :
    ∃ more, c.left = '/' :: more := by
  have hslash : c.peek 0 = '/' := by
    simp only [comment?, Bool.and_eq_true, beq_iff_eq] at h
    split_ifs at h with hline hblock
    · exact hline.1
    · exact hblock.1
  cases hleft : c.left with
  | nil => simp [peek, hleft] at hslash
  | cons a more =>
    have ha : a = '/' := by simpa [peek, hleft] using hslash
    exact ⟨more, by rw [ha]⟩

/-- Skipping a comment takes bytes from those that remain. -/
lemma remaining_skipBlock? (hpos : 0 < c.remaining) (h : c.skipBlock? = some d) :
    d.remaining < c.remaining := by
  obtain ⟨rest, -, rfl⟩ := Option.map_eq_some_iff.mp h
  split
  · rw [remaining_advance]
    omega
  · simp only [remaining] at hpos ⊢
    omega

/-- Behind a comment less is left. -/
lemma remaining_skipComment? {k : Comment} (hk : c.comment? = some k)
    (h : c.skipComment? k = some d) : d.remaining < c.remaining := by
  obtain ⟨more, hleft⟩ := exists_left_of_comment? hk
  have hpos : 0 < c.remaining := by
    rw [← length_left, hleft]
    exact Nat.succ_pos _
  cases k with
  | line =>
    obtain rfl := Option.some.inj h
    have hrun : 0 < runSize (· != '\n') c.left := by simp [runSize, hleft]
    rw [eatWhile, remaining_advance]
    omega
  | block => exact remaining_skipBlock? hpos h
  | closing => exact remaining_skipBlock? hpos h

end Remaining

/-- Skips blanks and comments. -/
def skipTrivia? (c : ByteCursor) : Option ByteCursor :=
  match hk : (c.eatWhile isBlank).comment? with
  | none => some (c.eatWhile isBlank)
  | some k =>
    match hd : (c.eatWhile isBlank).skipComment? k with
    | none => none
    | some d =>
      have : d.remaining < c.remaining :=
        Nat.lt_of_lt_of_le (remaining_skipComment? hk hd) (c.remaining_eatWhile_le isBlank)
      d.skipTrivia?
termination_by c.remaining

/-- What the look ahead for a header does with a byte outside of quotes and comments.  It answers,
or it goes on with other brackets and quotes open. -/
def headerStep (depth : Nat) (a : Char) : Except Bool (Nat × Option Char) :=
  if a == '{' then .error (depth == 0)
  else if a == ';' || a == '}' then .error false
  else if a == '[' then .ok (depth + 1, none)
  else if a == ']' then .ok (depth - 1, none)
  else if (a == '"' || a == '\'') && 0 < depth then .ok (depth, some a)
  else if isSelectorChar a then .ok (depth, none)
  else .error false

/-- The look ahead for a header, with `depth` brackets open and maybe a quote. -/
def headerAhead? (depth : Nat) (quote : Option Char) (c : ByteCursor) : Option Bool :=
  if hend : c.isAtEnd = true then some false
  else
    have : (c.advance 1).remaining < c.remaining := remaining_advance_lt hend
    match quote with
    | some q => headerAhead? depth (if c.peek 0 == q then none else some q) (c.advance 1)
    | none =>
      match hk : if depth = 0 then c.comment? else none with
      | some k =>
        match hd : c.skipComment? k with
        | none => none
        | some d =>
          have : d.remaining < c.remaining :=
            remaining_skipComment? (Option.ite_none_right_eq_some.mp hk).2 hd
          headerAhead? 0 none d
      | none =>
        match headerStep depth (c.peek 0) with
        | .error found => some found
        | .ok (depth, quote) => headerAhead? depth quote (c.advance 1)
termination_by c.remaining

/-! ### Passing over comments -/

/-- A comment opens where it opens in the text. -/
lemma comment?_between (done : List Char) (a : Char) (rest : List Char) :
    (between done (a :: rest)).comment? = Comment.opens a rest := by
  have hslash : ((between done (a :: rest)).peek 0 == '/') = (a == '/') :=
    peek_between (plain_beq (by decide)).uniform (by decide) done (a :: rest)
  by_cases ha : a = '/'
  · subst ha
    have hnext : ∀ d, IsAscii d → ('\x00' == d) = false →
        ((between done ('/' :: rest)).peek 1 == d) = (rest.head? == some d) := by
      intro d hd hzero
      rw [← headIs_beq]
      exact peek_one_between (plain_beq hd).uniform hzero (by decide) done rest
    simp only [comment?, hslash, hnext '/' (by decide) (by decide),
      hnext '*' (by decide) (by decide), Comment.opens, BEq.rfl, Bool.true_and, if_true]
    cases rest with
    | nil => rfl
    | cons b more =>
      by_cases hline : b = '/'
      · subst hline
        rfl
      · by_cases hblock : b = '*'
        · subst hblock
          rfl
        · simp [hline, hblock]
  · simp [comment?, hslash, Comment.opens, ha]

/-- No comment starts at the end. -/
lemma comment?_between_nil (done : List Char) : (between done []).comment? = none := by
  simp [comment?, peek, left_between, octets]

/-- A character that does not close the comment moves its end on. -/
lemma closerOffset?_cons {a : Char} {rest : List Char} (h : ¬ ['*', '/'] <+: a :: rest) :
    closerOffset? (a :: rest) = (closerOffset? rest).map (a.utf8Size + ·) := by
  have hhere : (a == '*' && rest.head? == some '/') = false := by
    refine Bool.eq_false_iff.mpr fun hhere => h ?_
    simp only [Bool.and_eq_true, beq_iff_eq] at hhere
    obtain ⟨rfl, hslash⟩ := hhere
    obtain ⟨more, rfl⟩ := List.head?_eq_some_iff.mp hslash
    exact ⟨more, rfl⟩
  rw [closerOffset?, hhere]
  rfl

/-- The first closing mark ends the comment. -/
lemma closerOffset?_append {body : List Char} (hbody : ¬ ['*', '/'] <:+: body ++ ['*'])
    (rest : List Char) : closerOffset? (body ++ '*' :: '/' :: rest) = some (byteLength body) := by
  induction body with
  | nil => rfl
  | cons a body ih =>
    rw [List.cons_append, List.infix_cons_iff, not_or] at hbody
    have hstart : ¬ ['*', '/'] <+: a :: (body ++ '*' :: '/' :: rest) := by
      intro hstart
      have hlonger : a :: (body ++ ['*']) <+: a :: (body ++ '*' :: '/' :: rest) :=
        ⟨'/' :: rest, by simp⟩
      exact hbody.1 (List.prefix_of_prefix_length_le hstart hlonger (by simp))
    rw [List.cons_append, closerOffset?_cons hstart, ih hbody.2]
    rfl

/-- Without a closing mark the comment has no end. -/
lemma closerOffset?_eq_none {cs : List Char} (h : ¬ ['*', '/'] <:+: cs) :
    closerOffset? cs = none := by
  induction cs with
  | nil => rfl
  | cons a cs ih =>
    rw [List.infix_cons_iff, not_or] at h
    rw [closerOffset?_cons h.1, ih h.2]
    rfl

/-- The characters of a comment at the start of a text are trivia that the look ahead passes over,
and the rest is what follows.  The line feed that ends a comment is counted to what follows. -/
structure Passes (cs rest : List Char) : Prop where
  triviaSize_eq : triviaSize none (cs ++ rest) = cs.length + triviaSize none rest
  headerAhead_eq : headerAhead (.plain 0) (cs ++ rest) = headerAhead (.plain 0) rest

/-- A run of trivia that ends with other trivia, without that. -/
lemma passes_of_trivia {cs gap : List Char} (h : Trivia (cs ++ gap)) (hgap : Trivia gap)
    (rest : List Char) : Passes cs (gap ++ rest) where
  triviaSize_eq := by
    rw [← List.append_assoc, h.triviaSize_append, hgap.triviaSize_append, List.length_append]
    omega
  headerAhead_eq := by
    rw [← List.append_assoc, Header.headerAhead_trivia h, Header.headerAhead_trivia hgap]

/-- A comment that is not closed is passed to the end of the text. -/
lemma passes_of_openComment {cs : List Char} (h : OpenComment cs) : Passes cs [] where
  triviaSize_eq := by
    rw [List.append_nil, h.triviaSize_eq]
    rfl
  headerAhead_eq := by
    rw [List.append_nil, Header.headerAhead_openComment h]
    rfl

/-- From between characters a comment is skipped without a cut inside of a character. -/
def SkipsComment (done text : List Char) (k : Comment) : Prop :=
  ∃ cs rest, text = cs ++ rest ∧ cs ≠ [] ∧ Passes cs rest ∧
    (between done text).skipComment? k = some (between (done ++ cs) rest)

/-- A comment of one line is skipped up to the end of the line. -/
lemma skipsComment_line (done body : List Char) :
    SkipsComment done ('/' :: '/' :: body) .line := by
  have hrun : Uniform (· != '\n') := by
    intro a b ha hb
    exact congrArg not ((plain_beq (by decide)).uniform ha hb)
  have hskip : ∀ cs rest, '\n' ∉ cs → headIs (· != '\n') rest = false →
      (between done ('/' :: '/' :: cs ++ rest)).skipComment? .line =
        some (between (done ++ '/' :: '/' :: cs) rest) := by
    intro cs rest hcs hrest
    have hall : ∀ c ∈ '/' :: '/' :: cs, (c != '\n') = true := by
      simp only [List.forall_mem_cons, bne_iff_ne]
      exact ⟨by decide, by decide, fun c hc hline => hcs (hline ▸ hc)⟩
    rw [skipComment?, eatWhile_between hrun, Header.runSize_append hall hrest, List.take_left,
      List.drop_left]
  by_cases hline : '\n' ∈ body
  · obtain ⟨cs, after, rfl, hcs⟩ := List.eq_append_cons_of_mem hline
    have hend : Trivia ['\n'] := .blank rfl .nil
    exact ⟨'/' :: '/' :: cs, '\n' :: after, rfl, by simp,
      passes_of_trivia (Trivia.line hcs .nil) hend after, hskip cs _ hcs rfl⟩
  · have hall := hskip body [] hline rfl
    rw [List.append_nil] at hall
    exact ⟨'/' :: '/' :: body, [], (List.append_nil _).symm, by simp,
      passes_of_openComment (.line hline), hall⟩

/-- A comment with a closing mark is skipped with its mark. -/
lemma skipBlock?_of_closer {body : List Char} (hbody : ¬ ['*', '/'] <:+: body ++ ['*'])
    (done rest : List Char) : (between done (body ++ '*' :: '/' :: rest)).skipBlock? =
      some (between (done ++ (body ++ ['*', '/'])) rest) := by
  have hmove := advance_between_append done (body ++ ['*', '/']) rest
  rw [byteLength_append, List.append_assoc] at hmove
  rw [skipBlock?, rest?_between, Option.map_some, closerOffset?_append hbody]
  exact congrArg some hmove

/-- A comment without a closing mark is skipped to the end of the text. -/
lemma skipBlock?_of_open {text : List Char} (h : ¬ ['*', '/'] <:+: text) (done : List Char) :
    (between done text).skipBlock? = some (between (done ++ text) []) := by
  rw [skipBlock?, rest?_between, Option.map_some, closerOffset?_eq_none h]
  simp [between]

/-- A comment in marks is skipped. -/
lemma skipsComment_block {tail body : List Char} (htail : tail = '*' :: body)
    (done : List Char) : SkipsComment done ('/' :: tail) .block := by
  -- The search starts at the slash, which is no part of a `*/`.
  have hslash {cs : List Char} (h : ¬ ['*', '/'] <:+: cs) : ¬ ['*', '/'] <:+: '/' :: cs := by
    rw [List.infix_cons_iff, not_or]
    exact ⟨by simp, h⟩
  rcases exists_closer tail with hnone | ⟨cs, after, rfl, hfirst⟩
  · refine ⟨'/' :: tail, [], (List.append_nil _).symm, by simp, ?_,
      skipBlock?_of_open (hslash hnone) done⟩
    rw [htail] at hnone ⊢
    exact passes_of_openComment (.block hnone)
  · have hopen : ∀ c ∈ cs.head?, c = '*' := by
      intro c hc
      obtain ⟨more, rfl⟩ := List.head?_eq_some_iff.mp hc
      exact (List.cons.inj htail).1
    have hgap : Trivia ('/' :: (cs ++ ['*', '/'])) := .block hopen hfirst .nil
    refine ⟨'/' :: (cs ++ ['*', '/']), after, by simp, by simp,
      passes_of_trivia (by rwa [List.append_nil]) .nil after, ?_⟩
    have hbody : ¬ ['*', '/'] <:+: ('/' :: cs) ++ ['*'] := hslash hfirst
    exact skipBlock?_of_closer hbody done after

/-- Whatever starts a comment is skipped. -/
lemma skipsComment_of_comment? {done text : List Char} {k : Comment}
    (h : (between done text).comment? = some k) : SkipsComment done text k := by
  cases text with
  | nil => exact absurd h (by simp [comment?_between_nil])
  | cons a tail =>
    rw [comment?_between] at h
    obtain ⟨rfl, ⟨body, rfl, rfl⟩ | ⟨body, htail, rfl⟩⟩ := Comment.opens_eq_some h
    · exact skipsComment_line done body
    · exact skipsComment_block htail done

/-! ### The loops -/

/-- The blanks at the start of a text. -/
lemma exists_blanks (text : List Char) : ∃ blanks rest, text = blanks ++ rest ∧ Trivia blanks ∧
    headIs isBlank rest = false ∧
    ∀ done, (between done text).eatWhile isBlank = between (done ++ blanks) rest := by
  refine ⟨text.take (runSize isBlank text), text.drop (runSize isBlank text),
    (List.take_append_drop _ _).symm, ?_, headIs_drop_runSize isBlank text,
    fun done => eatWhile_between plain_isBlank.uniform done text⟩
  rw [take_runSize]
  exact trivia_of_isBlank fun c hc => List.mem_takeWhile_imp hc

section SkipTrivia

variable {c d : ByteCursor}

/-- Where no comment follows the blanks, trivia end with them. -/
lemma skipTrivia?_of_comment?_eq_none (h : (c.eatWhile isBlank).comment? = none) :
    c.skipTrivia? = some (c.eatWhile isBlank) := by
  rw [skipTrivia?]
  split
  · rfl
  · rename_i hk
    rw [h] at hk
    cases hk

/-- Where a comment follows the blanks, trivia go on behind it. -/
lemma skipTrivia?_of_skipComment? {k : Comment} (hk : (c.eatWhile isBlank).comment? = some k)
    (hd : (c.eatWhile isBlank).skipComment? k = some d) : c.skipTrivia? = d.skipTrivia? := by
  rw [skipTrivia?]
  split
  · rename_i hnone
    rw [hk] at hnone
    cases hnone
  · rename_i hk'
    obtain rfl := Option.some.inj (hk.symm.trans hk')
    split
    · rename_i hnone
      rw [hd] at hnone
      cases hnone
    · rename_i hd'
      obtain rfl := Option.some.inj (hd.symm.trans hd')
      rfl

end SkipTrivia

/-- From between characters trivia is skipped without a cut inside of a character. -/
lemma skipTrivia?_between (done text : List Char) :
    (between done text).skipTrivia? = some
      (between (done ++ text.take (triviaSize none text)) (text.drop (triviaSize none text))) := by
  obtain ⟨blanks, rest, rfl, hblanks, hnoblank, heat⟩ := exists_blanks text
  cases hk : (between (done ++ blanks) rest).comment? with
  | none =>
    have hstart : startsTrivia rest = false := by
      cases rest with
      | nil => rfl
      | cons a rest =>
        have hblank : isBlank a = false := hnoblank
        rw [comment?_between] at hk
        rw [startsTrivia, hblank, hk]
        rfl
    rw [skipTrivia?_of_comment?_eq_none (by rw [heat, hk]), heat, hblanks.triviaSize_append,
      triviaSize_eq_zero hstart, Nat.zero_add, List.take_left, List.drop_left]
  | some k =>
    obtain ⟨cs, rest, rfl, hcs, hpass, hskip⟩ := skipsComment_of_comment? hk
    have hshorter : rest.length < (blanks ++ (cs ++ rest)).length := by
      have := List.length_pos_iff.mpr hcs
      simp only [List.length_append]
      omega
    rw [skipTrivia?_of_skipComment? (by rw [heat, hk]) (by rw [heat, hskip]),
      skipTrivia?_between (done ++ blanks ++ cs) rest, hblanks.triviaSize_append,
      hpass.triviaSize_eq, Nat.add_comm, List.take_length_add_append, List.take_length_add_append,
      List.drop_length_add_append, List.drop_length_add_append]
    simp only [List.append_assoc]
termination_by text.length

/-- Where the look ahead stands with brackets and maybe a quote open. -/
def lookahead (depth : Nat) : Option Char → Lookahead
  | none => .plain depth
  | some quote => .quoted depth quote

/-- What the look ahead does with a character is what it does with a byte. -/
lemma headerAhead_plain_cons {depth : Nat} {a : Char} {rest : List Char}
    (h : (if depth = 0 then Comment.opens a rest else none) = none) :
    headerAhead (.plain depth) (a :: rest) =
      match headerStep depth a with
      | .error found => found
      | .ok (depth, quote) => headerAhead (lookahead depth quote) rest := by
  rw [headerAhead, h]
  simp only [headerStep]
  by_cases hstop : (a == ';' || a == '}') = true
  · simp only [Bool.or_eq_true, beq_iff_eq] at hstop
    rcases hstop with rfl | rfl
    all_goals simp [isSelectorChar, isNameChar, isBlank]
  · simp only [hstop]
    split_ifs
    all_goals simp_all [lookahead]

/-- A character that is not ASCII ends a header. -/
lemma headerStep_of_not_isAscii {a : Char} (ha : ¬ IsAscii a) (depth : Nat) :
    headerStep depth a = .error false := by
  have hne {d : Char} (hd : IsAscii d) : (a == d) = false := plain_beq hd ha
  have hselector : isSelectorChar a = false := by
    simp (disch := decide) [isSelectorChar, plain_isNameChar ha, plain_isBlank ha, hne]
  simp (disch := decide) [headerStep, hne, hselector]

/-- A step of the look-ahead opens a quotation only with the character that it sees. -/
lemma eq_of_headerStep {depth : Nat} {a : Char} {p : Nat × Option Char}
    (h : headerStep depth a = .ok p) : ∀ q ∈ p.2, q = a := by
  simp only [headerStep] at h
  split_ifs at h
  all_goals
    cases h
    simp

section HeaderAhead

variable {c d : ByteCursor} {depth : Nat} {q : Char}

/-- No header is found at the end. -/
lemma headerAhead?_of_isAtEnd (h : c.isAtEnd = true) (quote : Option Char) :
    headerAhead? depth quote c = some false := by
  rw [headerAhead?.eq_def, dif_pos h]

/-- Inside of a quotation the look-ahead goes on to the closing quote. -/
lemma headerAhead?_quoted (h : c.isAtEnd = false) : headerAhead? depth (some q) c =
    headerAhead? depth (if c.peek 0 == q then none else some q) (c.advance 1) := by
  rw [headerAhead?, dif_neg (Bool.eq_false_iff.mp h)]

/-- The look-ahead passes a comment. -/
lemma headerAhead?_comment {k : Comment} (h : c.isAtEnd = false) (hk : c.comment? = some k)
    (hd : c.skipComment? k = some d) : headerAhead? 0 none c = headerAhead? 0 none d := by
  rw [headerAhead?, dif_neg (Bool.eq_false_iff.mp h)]
  split
  · rename_i hk'
    obtain rfl := Option.some.inj (hk.symm.trans hk')
    split
    · rename_i hnone
      rw [hd] at hnone
      cases hnone
    · rename_i hd'
      obtain rfl := Option.some.inj (hd.symm.trans hd')
      rfl
  · rename_i hnone
    rw [if_pos rfl, hk] at hnone
    cases hnone

/-- Any other byte takes one step of the look-ahead. -/
lemma headerAhead?_step (h : c.isAtEnd = false)
    (hk : (if depth = 0 then c.comment? else none) = none) :
    headerAhead? depth none c =
      match headerStep depth (c.peek 0) with
      | .error found => some found
      | .ok (depth, quote) => headerAhead? depth quote (c.advance 1) := by
  rw [headerAhead?, dif_neg (Bool.eq_false_iff.mp h)]
  split
  · rename_i hk'
    rw [hk] at hk'
    cases hk'
  · rfl

/-- Between quotes the look ahead passes over bytes outside of ASCII. -/
lemma headerAhead?_quoted_append (hq : IsAscii q) {bs rest : List Char}
    (hbs : ∀ b ∈ bs, ¬ IsAscii b) {n : Nat} (hleft : (c.advance n).left = bs ++ rest) :
    headerAhead? depth (some q) (c.advance n) =
      headerAhead? depth (some q) (c.advance (n + bs.length)) := by
  induction bs generalizing n with
  | nil => rfl
  | cons b bs ih =>
    obtain ⟨hb, hbs⟩ := List.forall_mem_cons.mp hbs
    have hend : (c.advance n).isAtEnd = false := by
      rw [isAtEnd_eq_isEmpty, hleft]
      rfl
    have hpeek : ((c.advance n).peek 0 == q) = false := by
      rw [peek, hleft]
      exact plain_beq hq hb
    have hnext : (c.advance (n + 1)).left = bs ++ rest := by
      rw [← advance_advance, left_advance, hleft]
      rfl
    rw [headerAhead?_quoted hend, hpeek, advance_advance, List.length_cons, Nat.add_comm bs.length,
      ← Nat.add_assoc]
    exact ih hbs hnext

end HeaderAhead

/-- The next character of a text is passed over between quotes. -/
lemma headerAhead?_quoted_between {q : Char} (hq : IsAscii q) (depth : Nat) (done : List Char)
    (a : Char) (rest : List Char) :
    headerAhead? depth (some q) (between done (a :: rest)) =
      headerAhead? depth (if a == q then none else some q) (between (done ++ [a]) rest) := by
  have hend : (between done (a :: rest)).isAtEnd = false := isAtEnd_between done (a :: rest)
  by_cases ha : IsAscii a
  · rw [headerAhead?_quoted hend, peek_zero_between ha, advance_one_between ha]
  · have hhere : (between done (a :: rest)).advance 0 = between done (a :: rest) := by
      simpa [byteLength] using advance_between_append done [] (a :: rest)
    have hleft : ((between done (a :: rest)).advance 0).left = octets [a] ++ octets rest := by
      rw [hhere, left_between, octets_cons]
    have hne : (a == q) = false := plain_beq hq ha
    have hpass : headerAhead? depth (some q) _ = _ :=
      headerAhead?_quoted_append hq (not_isAscii_of_mem_octets ha) hleft
    rw [hhere, Nat.zero_add, length_octets] at hpass
    rw [hpass, hne]
    exact congrArg _ (advance_between_append done [a] rest)

/-- Outside of quotes and comments the look ahead does with a character what it does with its first
byte. -/
lemma headerAhead?_step_between {depth : Nat} {done rest : List Char} {a : Char}
    (hk : (if depth = 0 then (between done (a :: rest)).comment? else none) = none)
    (hrest : ∀ depth quote, (∀ q ∈ quote, IsAscii q) →
      headerAhead? depth quote (between (done ++ [a]) rest) =
        some (headerAhead (lookahead depth quote) rest)) :
    headerAhead? depth none (between done (a :: rest)) =
      some (headerAhead (.plain depth) (a :: rest)) := by
  rw [headerAhead?_step (isAtEnd_between done (a :: rest)) hk]
  rw [comment?_between] at hk
  rw [headerAhead_plain_cons hk]
  by_cases ha : IsAscii a
  · rw [peek_zero_between ha, advance_one_between ha]
    cases hstep : headerStep depth a with
    | error found => rfl
    | ok p =>
      refine hrest p.1 p.2 fun q hq => ?_
      rw [eq_of_headerStep hstep q hq]
      exact ha
  · obtain ⟨b, hb, hpeek⟩ := exists_peek_of_not_isAscii ha done rest
    rw [hpeek, headerStep_of_not_isAscii hb, headerStep_of_not_isAscii ha]

/-- From between characters the look ahead makes no cut inside of a character. -/
lemma headerAhead?_between {quote : Option Char} (hquote : ∀ q ∈ quote, IsAscii q) (depth : Nat)
    (done text : List Char) : headerAhead? depth quote (between done text) =
      some (headerAhead (lookahead depth quote) text) := by
  cases text with
  | nil =>
    rw [headerAhead?_of_isAtEnd (isAtEnd_between done [])]
    cases quote <;> rfl
  | cons a rest =>
    have hend : (between done (a :: rest)).isAtEnd = false := isAtEnd_between done (a :: rest)
    cases quote with
    | some q =>
      have hquote' : ∀ q' ∈ (if a == q then none else some q), IsAscii q' := by
        intro q' hq'
        split at hq'
        · cases hq'
        · exact hquote q' hq'
      rw [headerAhead?_quoted_between (hquote q rfl), headerAhead?_between hquote']
      rw [lookahead, headerAhead]
      split <;> rfl
    | none =>
      -- comments are looked for only outside of all brackets
      cases hk : if depth = 0 then (between done (a :: rest)).comment? else none with
      | some k =>
        obtain ⟨rfl, hcomment⟩ := Option.ite_none_right_eq_some.mp hk
        obtain ⟨cs, after, htext, hcs, hpass, hskip⟩ := skipsComment_of_comment? hcomment
        have hshorter : after.length < rest.length + 1 := by
          have hlength := congrArg List.length htext
          have hpos := List.length_pos_iff.mpr hcs
          simp only [List.length_cons, List.length_append] at hlength
          omega
        rw [headerAhead?_comment hend hcomment hskip, headerAhead?_between hquote, htext]
        exact congrArg some hpass.headerAhead_eq.symm
      | none =>
        exact headerAhead?_step_between hk fun depth quote hquote =>
          headerAhead?_between hquote depth (done ++ [a]) rest
termination_by text.length

/-- From the start of a text, the look-ahead over bytes finds what the one over characters finds. -/
lemma headerAhead?_start (text : List Char) :
    headerAhead? 0 none ⟨text, 0⟩ = some (headerAhead (.plain 0) text) :=
  headerAhead?_between (by simp) 0 [] text

end ByteCursor

end Token

end StyleSheet

import StyleSheet.Proofs.Bytes.Lookahead

/-!
# Tokens between bytes

What a token is and where it ends is found by counting bytes.  On the way the text is cut where its
characters matter: to look a word up, to look ahead for a header, and to say what is unknown.

From between characters none of these cuts fails, and what is recognised in the bytes is what
`lexeme` recognises in the characters, at the same place (`lexeme?_between`).
-/

namespace StyleSheet

open Text

namespace Token

/-- A recognised token: its kind and where it ends, or why there is none. -/
abbrev Recognition := Except ScanError (Kind × ByteCursor)

namespace ByteCursor

section Recognisers

variable (table : Keyword.Table) (previous : Option Kind) (c : ByteCursor)

/-- A count of bytes as a place.  Of what is recognised by counting only a dollar sign without a
name is unknown, and its text is that one byte. -/
def counted : Except LexemeError Lexeme → Recognition
  | .ok l => .ok (l.kind, c.advance (l.more + 1))
  | .error (.unknown more) =>
    .error (.unknown (String.ofList (c.left.take (more + 1))) (.ofRange c.pos (c.pos + (more + 1))))
  | .error (.unterminated what before) =>
    .error (.unterminated what (.ofRange (c.pos + before) (byteLength c.source)))

def selectorStarts? : Option Bool :=
  if selectorMayFollow previous then c.rest?.bind fun rest => headerAhead? 0 none ⟨rest, 0⟩
  else some false

/-- The character at the place is no token. -/
def unknown? : Option Recognition :=
  c.rest?.map fun rest =>
    let a := rest.headD '\x00'
    .error (.unknown (String.singleton a) (.ofRange c.pos (c.pos + a.utf8Size)))

def keyword? : Option Recognition :=
  let d := (c.advance 1).eatWhile fun a => a.isAlpha || a == '-' || a == '_'
  (d.sliceFrom? c.pos).map fun text =>
    match table.lookup (String.ofList text) with
    | some k => .ok (.keyword k, d)
    | none => .error (.unknown (String.ofList text) (.ofRange c.pos d.pos))

def star? : Option Recognition :=
  (c.selectorStarts? previous).map fun starts =>
    if starts then c.counted (selector '*' c.left.tail) else .ok (.star, c.advance 1)

def hash? : Option Recognition :=
  (c.selectorStarts? previous).bind fun starts =>
    if starts then some (c.counted (selector '#' c.left.tail))
    else
      let d := (c.advance 1).eatWhile isHexDigit
      let digits := d.pos - c.pos - 1
      if (digits == 3 || digits == 4 || digits == 6 || digits == 8) && !isNameChar (d.peek 0) then
        some (.ok (.color, d))
      else if isNameStart (c.peek 1) then some (c.counted (selector '#' c.left.tail))
      else c.unknown?

def word? : Option Recognition :=
  let d := c.eatWhile isNameChar
  (d.sliceFrom? c.pos).bind fun text =>
    if String.ofList text == "true" then some (.ok (.litTrue, d))
    else if String.ofList text == "false" then some (.ok (.litFalse, d))
    else (c.selectorStarts? previous).map fun starts =>
      if starts then c.counted (selector (c.peek 0) c.left.tail)
      else if colonFollows d.left then .ok (.property, d)
      else if Color.isName (String.ofList text) then .ok (.color, d)
      else .ok (.string, d)

/-- The token at the place.  `attached` tells that nothing stands between it and the one before. -/
def lexeme? (attached : Bool) : Option Recognition :=
  let a := c.peek 0
  let afterSelector := previous.any Kind.isSimpleSelector
  match punctuation? a with
  | some kind => some (.ok (kind, c.advance 1))
  | none =>
    if a == '-' then some (c.counted (.ok (minus previous c.left.tail)))
    else if a == '=' && c.peek 1 == '=' then some (.ok (.equal, c.advance 2))
    else if a == '!' && c.peek 1 == '=' then some (.ok (.notEqual, c.advance 2))
    else if a == '@' || a == '!' then c.keyword? table
    else if a == '>' then
      some (.ok (if afterSelector then .childCombinator else .greater, c.advance 1))
    else if a == ':' then
      if afterSelector && attached && startsState c.left.tail then
        some (c.counted (selector a c.left.tail))
      else some (.ok (.colon, c.advance 1))
    else if a == '*' then c.star? previous
    else if a == '$' then some (c.counted (variableLexeme c.left.tail))
    else if a == '"' || a == '\'' then some (c.counted (quotedString a c.left.tail))
    else if a.isDigit then some (c.counted (.ok (number c.left.tail)))
    else if a == '#' then c.hash? previous
    else if (a == '.' || a == '%') && isNameStart (c.peek 1) then
      some (c.counted (selector a c.left.tail))
    else if isNameStart a then c.word? previous
    else c.unknown?

end Recognisers

/-- The token from `start` on to the place. -/
def token? (kind : Kind) (start : Nat) (c : ByteCursor) : Option Token :=
  (c.sliceFrom? start).map fun text => ⟨kind, String.ofList text, .ofRange start c.pos⟩

/-! ### Recognition between characters -/

/-- What is recognised in the characters at a place. -/
def located (done text : List Char) : Except LexemeError Lexeme → Recognition
  | .ok l => .ok (l.kind, between (done ++ text.take (l.more + 1)) (text.drop (l.more + 1)))
  | .error e => .error (Scanner.locate ⟨byteLength done, none, text⟩ 0 e)

section Between

variable {table : Keyword.Table} {previous : Option Kind} {a : Char} (done rest : List Char)

/-- An unknown token is located from where it starts over its characters. -/
lemma located_unknown (text : List Char) (more : Nat) :
    located done text (.error (.unknown more)) =
      .error (.unknown (String.ofList (text.take (more + 1)))
        (.ofRange (byteLength done) (byteLength done + byteLength (text.take (more + 1))))) := rfl

/-- What is not closed is located from where it opens to the end of the text. -/
lemma located_unterminated (text : List Char) (what : Enclosure) (before : Nat) :
    located done text (.error (.unterminated what before)) =
      .error (.unterminated what (.ofRange (byteLength done + byteLength (text.take before))
        (byteLength done + byteLength text))) := by
  simp only [located, Scanner.locate, Nat.zero_add]

@[simp] lemma pos_between (text : List Char) : (between done text).pos = byteLength done := rfl

@[simp] lemma source_between (text : List Char) : (between done text).source = done ++ text := rfl

/-- Counting bytes finds the place that counting characters finds. -/
lemma counted_inBytes (ha : IsAscii a) {r : Except LexemeError Lexeme}
    (hr : ∀ more, r = .error (.unknown more) → more = 0) :
    (between done (a :: rest)).counted (inBytes a rest r) = located done (a :: rest) r := by
  rcases r with (more | ⟨what, before⟩) | l
  · obtain rfl := hr more rfl
    have htake : (octets (a :: rest)).take 1 = [a] := by
      rw [octets_cons_of_isAscii ha]
      rfl
    rw [located_unknown, inBytes, counted, left_between, pos_between]
    simp only [List.take_zero, byteLength, Nat.zero_add, htake, List.take_succ_cons,
      utf8Size_of_isAscii ha, Nat.add_zero]
  · rw [located_unterminated, inBytes, counted, pos_between, source_between, byteLength_append]
  · have hmove := advance_between done (a :: rest) (l.more + 1)
    rw [List.take_succ_cons, byteLength, utf8Size_of_isAscii ha, Nat.add_comm 1] at hmove
    simp only [inBytes, counted, hmove]
    rfl

/-- Behind an ASCII character the bytes of the rest are left. -/
lemma tail_left (ha : IsAscii a) : (between done (a :: rest)).left.tail = octets rest := by
  rw [left_between, octets_cons_of_isAscii ha, List.tail_cons]

/-- A selector is counted in bytes as it is located in characters. -/
lemma counted_selector (ha : IsAscii a) :
    (between done (a :: rest)).counted (selector a (octets rest)) =
      located done (a :: rest) (selector a rest) := by
  rw [selector_octets ha]
  refine counted_inBytes done rest ha fun more h => ?_
  unfold selector at h
  simp only at h
  split at h <;> cases h

/-- Between characters both see alike whether a selector starts. -/
lemma selectorStarts?_between (previous : Option Kind) (text : List Char) :
    (between done text).selectorStarts? previous = some (selectorStarts previous text) := by
  rw [selectorStarts?, selectorStarts, rest?_between, Option.bind_some, headerAhead?_start]
  cases selectorMayFollow previous <;> rfl

/-- Between characters both report the same unknown character. -/
lemma unknown?_between :
    (between done (a :: rest)).unknown? =
      some (located done (a :: rest) (.error (.unknown 0))) := by
  rw [unknown?, rest?_between, located_unknown]
  simp [byteLength]

/-- One character taken. -/
lemma ok_advance_one (ha : IsAscii a) (kind : Kind) :
    (.ok (kind, (between done (a :: rest)).advance 1) : Recognition) =
      located done (a :: rest) (.ok ⟨kind, 0⟩) := by
  rw [advance_one_between ha]
  rfl

/-- Between characters both read the same keyword. -/
lemma keyword?_between (ha : IsAscii a) : (between done (a :: rest)).keyword? table =
    some (located done (a :: rest) (keyword table a rest)) := by
  have hword : Uniform fun a => a.isAlpha || a == '-' || a == '_' :=
    ((plain_isAlpha.or (plain_beq (by decide))).or (plain_beq (by decide))).uniform
  rw [keyword?, advance_one_between ha, eatWhile_between hword, List.append_assoc,
    List.singleton_append]
  simp only [pos_between, sliceFrom?_between, Option.map_some, keyword]
  cases table.lookup _ with
  | some k => rfl
  | none =>
    simp only [located_unknown, byteLength_append]
    rfl

/-- Each character of a run in ASCII has one byte. -/
lemma byteLength_take_runSize {p : Char → Bool} (hp : Plain p) (cs : List Char) :
    byteLength (cs.take (runSize p cs)) = runSize p cs := by
  have hone : ∀ ds : List Char, (∀ c ∈ ds, p c = true) → byteLength ds = ds.length := by
    intro ds hds
    induction ds with
    | nil => rfl
    | cons c ds ih =>
      obtain ⟨hc, hds⟩ := List.forall_mem_cons.mp hds
      have hascii : IsAscii c := by
        by_contra h
        exact absurd hc (by simp [hp h])
      rw [byteLength, utf8Size_of_isAscii hascii, ih hds, List.length_cons, Nat.add_comm]
  rw [take_runSize, hone _ fun c hc => List.mem_takeWhile_imp hc]
  rfl

/-- Between characters both read a star alike. -/
lemma star?_between : (between done ('*' :: rest)).star? previous =
    some (located done ('*' :: rest)
      (if selectorStarts previous ('*' :: rest) then selector '*' rest else .ok ⟨.star, 0⟩)) := by
  have ha : IsAscii '*' := by decide
  rw [star?, selectorStarts?_between, tail_left done rest ha,
    counted_selector done rest ha, ok_advance_one done rest ha,
    Option.map_some]
  split <;> rfl

/-- Between characters both read a hash sign alike. -/
lemma hash?_between : (between done ('#' :: rest)).hash? previous =
    some (located done ('#' :: rest) (hash previous rest)) := by
  have ha : IsAscii '#' := by decide
  have hdigits := eatWhile_between plain_isHexDigit.uniform (done ++ ['#']) rest
  rw [hash?, selectorStarts?_between, tail_left done rest ha, counted_selector done rest ha,
    advance_one_between ha, hdigits, unknown?_between, Option.bind_some]
  simp only [pos_between, byteLength_append, byteLength_take_runSize plain_isHexDigit]
  have hsize : byteLength done + byteLength ['#'] + runSize isHexDigit rest - byteLength done - 1 =
      runSize isHexDigit rest := by
    simp only [byteLength, utf8Size_of_isAscii ha]
    omega
  rw [hsize, peek_between plain_isNameChar.uniform (by decide),
    peek_one_between plain_isNameStart.uniform (by decide) ha, hash]
  split_ifs
  · rfl
  · rw [List.append_assoc]
    rfl
  · rfl
  · rfl

/-- The characters of such a class are ASCII. -/
lemma isAscii_of_class {p : Char → Bool} (hp : Plain p) (h : p a = true) : IsAscii a := by
  by_contra ha
  exact absurd h (by simp [hp ha])

/-- Between characters both read the same word. -/
lemma word?_between (ha : isNameStart a = true) : (between done (a :: rest)).word? previous =
    some (located done (a :: rest) (word previous a rest)) := by
  have hascii : IsAscii a := isAscii_of_class plain_isNameStart ha
  have hrun : runSize isNameChar (a :: rest) = runSize isNameChar rest + 1 := by
    simp [runSize, Header.isNameChar_of_isNameStart ha]
  rw [word?, eatWhile_between plain_isNameChar.uniform, hrun, selectorStarts?_between,
    peek_zero_between hascii, tail_left done rest hascii, counted_selector done rest hascii,
    left_between]
  simp only [pos_between, sliceFrom?_between, Option.bind_some, Option.map_some,
    List.take_succ_cons, List.drop_succ_cons, colonFollows_octets, word]
  split_ifs <;> rfl

/-- A string is counted in bytes as it is located in characters. -/
lemma counted_quotedString (ha : IsAscii a) :
    (between done (a :: rest)).counted (quotedString a (octets rest)) =
      located done (a :: rest) (quotedString a rest) := by
  rw [quotedString_octets ha]
  refine counted_inBytes done rest ha fun more h => ?_
  unfold quotedString at h
  split at h <;> cases h

/-- A variable is counted in bytes as it is located in characters. -/
lemma counted_variableLexeme (ha : IsAscii a) :
    (between done (a :: rest)).counted (variableLexeme (octets rest)) =
      located done (a :: rest) (variableLexeme rest) := by
  rw [variableLexeme_octets a]
  refine counted_inBytes done rest ha fun more h => ?_
  unfold variableLexeme at h
  split_ifs at h
  cases h
  rfl

/-- A token is counted in bytes as it is located in characters. -/
lemma counted_ok (ha : IsAscii a) (l : Lexeme) :
    (between done (a :: rest)).counted (.ok ⟨l.kind, byteLength (rest.take l.more)⟩) =
      located done (a :: rest) (.ok l) :=
  counted_inBytes done rest ha (r := .ok l) fun _ h => nomatch h

/-- Two characters taken. -/
lemma ok_advance_two (ha : IsAscii a) (hrest : rest.head? = some '=') (kind : Kind) :
    (.ok (kind, (between done (a :: rest)).advance 2) : Recognition) =
      located done (a :: rest) (.ok ⟨kind, 1⟩) := by
  obtain ⟨more, rfl⟩ := List.head?_eq_some_iff.mp hrest
  have hmove := advance_between_append done [a, '='] more
  rw [byteLength, utf8Size_of_isAscii ha] at hmove
  exact congrArg (fun d => Except.ok (kind, d)) hmove

/-- A character that is not ASCII starts no token for either. -/
lemma lexeme?_of_not_isAscii (ha : ¬ IsAscii a) (attached : Bool) :
    (between done (a :: rest)).lexeme? table previous attached =
      some (located done (a :: rest) (lexeme table previous attached a rest)) := by
  obtain ⟨b, hb, hpeek⟩ := exists_peek_of_not_isAscii ha done rest
  have hne {c d : Char} (hc : ¬ IsAscii c) (hd : IsAscii d) : (c == d) = false := plain_beq hd hc
  have hpunct {c : Char} (hc : ¬ IsAscii c) : punctuation? c = none := by
    simp (disch := first | decide | assumption) [punctuation?, hne]
  have hunknown : lexeme table previous attached a rest = .error (.unknown 0) := by
    simp (disch := first | decide | assumption) [lexeme, hpunct, hne, plain_isDigit ha,
      plain_isNameStart ha]
  rw [hunknown, ← unknown?_between]
  simp (disch := first | decide | assumption) [lexeme?, hpeek, hpunct, hne, plain_isDigit hb,
    plain_isNameStart hb]

/-- A choice is made alike in both. -/
lemma ite_eq_located {p : Prop} [Decidable p] {text : List Char} {l r : Option Recognition}
    {x y : Except LexemeError Lexeme} (hx : p → l = some (located done text x))
    (hy : ¬ p → r = some (located done text y)) :
    (if p then l else r) = some (located done text (if p then x else y)) := by
  split
  · exact hx ‹_›
  · exact hy ‹_›

/-- What is recognised in the bytes of a text is what is recognised in its characters. -/
lemma lexeme?_between (attached : Bool) :
    (between done (a :: rest)).lexeme? table previous attached =
      some (located done (a :: rest) (lexeme table previous attached a rest)) := by
  by_cases ha : IsAscii a
  · have hone := ok_advance_one done rest ha
    have hnext : ((between done (a :: rest)).peek 1 == '=') = (rest.head? == some '=') := by
      rw [← headIs_beq]
      exact peek_one_between (plain_beq (by decide)).uniform (by decide) ha done rest
    have hname : isNameStart ((between done (a :: rest)).peek 1) = headIs isNameStart rest :=
      peek_one_between plain_isNameStart.uniform (by decide) ha done rest
    -- both dispatch on the same tests in the same order, so their branches are compared one by one
    unfold lexeme? lexeme
    simp only [peek_zero_between ha, hnext, hname, hone, tail_left done rest ha,
      counted_selector done rest ha, counted_quotedString done rest ha,
      counted_variableLexeme done rest ha, minus_octets, number_octets, startsState_octets,
      counted_ok done rest ha]
    cases punctuation? a with
    | some kind => rfl
    | none =>
      refine ite_eq_located _ (fun _ => rfl) fun _ => ?_
      refine ite_eq_located _ (fun h => ?_) fun _ => ?_
      · simp only [Bool.and_eq_true, beq_iff_eq] at h
        rw [ok_advance_two done rest ha h.2]
      refine ite_eq_located _ (fun h => ?_) fun _ => ?_
      · simp only [Bool.and_eq_true, beq_iff_eq] at h
        rw [ok_advance_two done rest ha h.2]
      refine ite_eq_located _ (fun _ => keyword?_between done rest ha) fun _ => ?_
      refine ite_eq_located _ (fun _ => rfl) fun _ => ?_
      refine ite_eq_located _ (fun _ => ite_eq_located _ (fun _ => rfl) fun _ => rfl) fun _ => ?_
      refine ite_eq_located _ (fun h => ?_) fun _ => ?_
      · obtain rfl := eq_of_beq h
        exact star?_between done rest
      refine ite_eq_located _ (fun _ => rfl) fun _ => ?_
      refine ite_eq_located _ (fun _ => rfl) fun _ => ?_
      refine ite_eq_located _ (fun _ => rfl) fun _ => ?_
      refine ite_eq_located _ (fun h => ?_) fun _ => ?_
      · obtain rfl := eq_of_beq h
        exact hash?_between done rest
      refine ite_eq_located _ (fun _ => rfl) fun _ => ?_
      refine ite_eq_located _ (fun h => word?_between done rest h) fun _ => ?_
      exact unknown?_between done rest
  · exact lexeme?_of_not_isAscii done rest ha attached

/-- A token between two places has the text in between and their span. -/
lemma token?_between (kind : Kind) (cs : List Char) :
    (between (done ++ cs) rest).token? kind (byteLength done) = some
      ⟨kind, String.ofList cs, .ofRange (byteLength done) (byteLength done + byteLength cs)⟩ := by
  rw [token?, sliceFrom?_between, pos_between, byteLength_append]
  rfl

end Between

end ByteCursor

end Token

end StyleSheet

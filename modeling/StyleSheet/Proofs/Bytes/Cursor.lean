import StyleSheet.Proofs.Bytes.Counting

/-!
# Places between bytes

A scanner can go through the encoding of a text byte by byte, without looking where characters
start.  A place is then a number of bytes, and it can lie inside of a character.  Only where a text
is cut the place has to be one between characters: a cut at any other place fails
(`rest?_isSome_iff`, `sliceFrom?_isSome_iff`), and with it all that needs the cut.

What is read from a place between characters, and where moves lead from there, is said by the
characters on both sides of it (`between`).
-/

namespace StyleSheet

namespace Text

/-! ### Cuts -/

variable {cs : List Char} {n : Nat}

/-- A cut at a number of bytes succeeds where a prefix of the text has that many. -/
lemma dropBytes?_eq_some_iff {rest : List Char} :
    dropBytes? cs n = some rest ↔ ∃ done, cs = done ++ rest ∧ byteLength done = n := by
  constructor
  · intro h
    fun_induction dropBytes? cs n with
    | case1 cs => exact ⟨[], by simpa using h, rfl⟩
    | case2 n => cases h
    | case3 c cs n hle ih =>
      obtain ⟨done, rfl, hdone⟩ := ih h
      exact ⟨c :: done, rfl, by rw [byteLength, hdone]; omega⟩
    | case4 => cases h
  · rintro ⟨done, rfl, rfl⟩
    exact dropBytes?_byteLength done rest

/-- Bytes can be taken exactly up to where a character ends. -/
lemma takeBytes?_eq_some_iff {done : List Char} :
    takeBytes? cs n = some done ↔ ∃ rest, cs = done ++ rest ∧ byteLength done = n := by
  constructor
  · intro h
    fun_induction takeBytes? cs n generalizing done with
    | case1 cs =>
      obtain rfl := Option.some.inj h
      exact ⟨cs, rfl, rfl⟩
    | case2 n => cases h
    | case3 c cs n hle ih =>
      obtain ⟨ds, hds, rfl⟩ := Option.map_eq_some_iff.mp h
      obtain ⟨rest, rfl, hlength⟩ := ih hds
      exact ⟨rest, rfl, by rw [byteLength, hlength]; omega⟩
    | case4 => cases h
  · rintro ⟨rest, rfl, rfl⟩
    exact takeBytes?_byteLength done rest

end Text

open Text

namespace Token

/-- A place in a text: the number of bytes before it. -/
structure ByteCursor where
  source : List Char
  pos : Nat

namespace ByteCursor

section Moves

variable (c : ByteCursor)

/-- The bytes that are left. -/
def left : List Char := (octets c.source).drop c.pos

def isAtEnd : Bool := byteLength c.source ≤ c.pos

/-- The byte behind the next `n`; behind the end of the text there are zeros. -/
def peek (n : Nat) : Char := c.left[n]?.getD '\x00'

/-- The place `n` bytes further on, or the end. -/
def advance (n : Nat) : ByteCursor := ⟨c.source, min (c.pos + n) (byteLength c.source)⟩

def eatWhile (p : Char → Bool) : ByteCursor := c.advance (runSize p c.left)

/-- The text from the place on, if a character starts there. -/
def rest? : Option (List Char) := dropBytes? c.source c.pos

/-- The text from another place to this one, if both are between characters. -/
def sliceFrom? (start : Nat) : Option (List Char) := slice? c.source start c.pos

end Moves

/-- The text that is left can be cut off just at a place between characters. -/
lemma rest?_isSome_iff (c : ByteCursor) :
    c.rest?.isSome = true ↔ String.Pos.Raw.IsValid (String.ofList c.source) ⟨c.pos⟩ := by
  simp only [rest?, Option.isSome_iff_exists, dropBytes?_eq_some_iff, isValid_iff_exists_append,
    String.toList_ofList]
  exact exists_comm

/-- A text can be cut out just between two places between characters. -/
lemma sliceFrom?_isSome_iff (c : ByteCursor) (start : Nat) :
    (c.sliceFrom? start).isSome = true ↔ start ≤ c.pos ∧
      String.Pos.Raw.IsValid (String.ofList c.source) ⟨start⟩ ∧
      String.Pos.Raw.IsValid (String.ofList c.source) ⟨c.pos⟩ := by
  simp only [isValid_iff_exists_append, String.toList_ofList, sliceFrom?, slice?]
  constructor
  · intro h
    obtain ⟨text, htext⟩ := Option.isSome_iff_exists.mp h
    obtain ⟨hle, htext⟩ := Option.ite_none_right_eq_some.mp htext
    obtain ⟨rest, hrest, htake⟩ := Option.bind_eq_some_iff.mp htext
    obtain ⟨done, hsource, hdone⟩ := dropBytes?_eq_some_iff.mp hrest
    obtain ⟨after, rfl, hlength⟩ := takeBytes?_eq_some_iff.mp htake
    refine ⟨hle, ⟨done, _, hsource, hdone⟩, ⟨done ++ text, after, ?_, ?_⟩⟩
    · rw [hsource, List.append_assoc]
    · rw [byteLength_append]
      omega
  · rintro ⟨hle, ⟨done, rest, hsource, hdone⟩, before, after, hsource', hbefore⟩
    -- The longer prefix goes on where the shorter one ends.
    obtain ⟨text, rfl, rfl⟩ : ∃ text, before = done ++ text ∧ rest = text ++ after := by
      rcases List.append_eq_append_iff.mp (hsource.symm.trans hsource') with
        ⟨text, hbefore, hrest⟩ | ⟨text, rfl, rfl⟩
      · exact ⟨text, hbefore, hrest⟩
      · have hnil : text = [] := by
          rw [← byteLength_eq_zero]
          rw [byteLength_append] at hdone
          omega
        exact ⟨[], by simp [hnil], by simp [hnil]⟩
    have hslice := slice?_byteLength done text after
    rw [← byteLength_append, hbefore, hdone, ← hsource, slice?] at hslice
    rw [hslice]
    rfl

/-- A cursor that moves on drops the bytes that it passes. -/
lemma left_advance (c : ByteCursor) (n : Nat) : (c.advance n).left = c.left.drop n := by
  rw [left, left, List.drop_drop, advance, ← length_octets]
  exact List.drop_eq_drop_min.symm

/-- Two moves are one. -/
lemma advance_advance (c : ByteCursor) (m n : Nat) :
    (c.advance m).advance n = c.advance (m + n) := by
  simp only [advance]
  congr 1
  omega

/-- A cursor is at the end exactly if no bytes are left. -/
lemma isAtEnd_eq_isEmpty (c : ByteCursor) : c.isAtEnd = c.left.isEmpty := by
  rw [Bool.eq_iff_iff, isAtEnd, List.isEmpty_iff, left, List.drop_eq_nil_iff, length_octets,
    decide_eq_true_eq]

/-! ### What is left -/

/-- The number of bytes that are left. -/
def remaining (c : ByteCursor) : Nat := byteLength c.source - c.pos

section Remaining

variable {c : ByteCursor}

/-- As many bytes are left as remain. -/
lemma length_left (c : ByteCursor) : c.left.length = c.remaining := by
  rw [left, List.length_drop, length_octets, remaining]

/-- A move takes its bytes from those that remain. -/
lemma remaining_advance (c : ByteCursor) (n : Nat) : (c.advance n).remaining = c.remaining - n := by
  simp only [remaining, advance]
  omega

/-- A run does not add to the bytes that remain. -/
lemma remaining_eatWhile_le (c : ByteCursor) (p : Char → Bool) :
    (c.eatWhile p).remaining ≤ c.remaining := by
  rw [eatWhile, remaining_advance]
  exact Nat.sub_le _ _

/-- Before the end, a step takes a byte from those that remain. -/
lemma remaining_advance_lt (h : ¬ c.isAtEnd = true) : (c.advance 1).remaining < c.remaining := by
  simp only [isAtEnd, decide_eq_true_eq] at h
  simp only [remaining, advance]
  omega

end Remaining

/-! ### Places between characters -/

/-- The place between two parts of a text. -/
def between (done rest : List Char) : ByteCursor := ⟨done ++ rest, byteLength done⟩

section Between

variable {p : Char → Bool}

/-- A cursor between two texts has the bytes of the second left. -/
lemma left_between (done rest : List Char) : (between done rest).left = octets rest := by
  rw [left, between, octets_append, ← length_octets, List.drop_left]

/-- A cursor between two texts is at the end exactly if the second is empty. -/
lemma isAtEnd_between (done rest : List Char) : (between done rest).isAtEnd = rest.isEmpty := by
  rw [isAtEnd, between, byteLength_append]
  cases rest with
  | nil => simp [byteLength]
  | cons a rest => simp [byteLength, a.utf8Size_pos.ne']

/-- A cursor between two texts stands between characters, and the second is the rest. -/
lemma rest?_between (done rest : List Char) : (between done rest).rest? = some rest :=
  dropBytes?_byteLength done rest

/-- The slice from an earlier place between characters is the text in between. -/
lemma sliceFrom?_between (done cs rest : List Char) :
    (between (done ++ cs) rest).sliceFrom? (byteLength done) = some cs := by
  rw [sliceFrom?, between, byteLength_append, List.append_assoc]
  exact slice?_byteLength done cs rest

/-- A move by the bytes of a text passes that text. -/
lemma advance_between_append (done cs rest : List Char) :
    (between done (cs ++ rest)).advance (byteLength cs) = between (done ++ cs) rest := by
  simp only [advance, between, byteLength_append, List.append_assoc]
  congr 1
  omega

/-- A move by the bytes of some characters passes these characters. -/
lemma advance_between (done rest : List Char) (n : Nat) :
    (between done rest).advance (byteLength (rest.take n)) =
      between (done ++ rest.take n) (rest.drop n) := by
  rw [← advance_between_append, List.take_append_drop]

/-- A move by one byte passes an ASCII character. -/
lemma advance_one_between {a : Char} (ha : IsAscii a) (done rest : List Char) :
    (between done (a :: rest)).advance 1 = between (done ++ [a]) rest := by
  have h := advance_between_append done [a] rest
  rwa [byteLength, utf8Size_of_isAscii ha] at h

/-- A run of bytes passes the run of characters. -/
lemma eatWhile_between (hp : Uniform p) (done rest : List Char) :
    (between done rest).eatWhile p =
      between (done ++ rest.take (runSize p rest)) (rest.drop (runSize p rest)) := by
  rw [eatWhile, left_between, runSize_octets hp, advance_between]

/-- The next byte, where a zero does not matter. -/
lemma peek_between (hp : Uniform p) (hzero : p '\x00' = false) (done rest : List Char) :
    p ((between done rest).peek 0) = headIs p rest := by
  rw [← headIs_octets hp, peek, left_between]
  cases octets rest with
  | nil => exact hzero
  | cons a as => rfl

/-- The next byte is the next character if that is ASCII. -/
lemma peek_zero_between {a : Char} (ha : IsAscii a) (done rest : List Char) :
    (between done (a :: rest)).peek 0 = a := by
  rw [peek, left_between, octets_cons_of_isAscii ha]
  rfl

/-- The first byte of any other character. -/
lemma exists_peek_of_not_isAscii {a : Char} (ha : ¬ IsAscii a) (done rest : List Char) :
    ∃ b, ¬ IsAscii b ∧ (between done (a :: rest)).peek 0 = b := by
  obtain ⟨b, bs, hbytes, -, hbs⟩ := exists_octets_of_not_isAscii ha
  refine ⟨b, hbs b List.mem_cons_self, ?_⟩
  rw [peek, left_between, octets_cons, hbytes]
  rfl

/-- The byte behind a character of ASCII. -/
lemma peek_one_between (hp : Uniform p) (hzero : p '\x00' = false) {a : Char} (ha : IsAscii a)
    (done rest : List Char) : p ((between done (a :: rest)).peek 1) = headIs p rest := by
  rw [← headIs_octets hp, peek, left_between, octets_cons_of_isAscii ha]
  cases octets rest with
  | nil => exact hzero
  | cons a as => rfl

end Between

/-- A text starts with a character exactly if that is its first one. -/
lemma headIs_beq (d : Char) (cs : List Char) : headIs (· == d) cs = (cs.head? == some d) := by
  cases cs <;> simp [headIs]

end ByteCursor

end Token

end StyleSheet

import StyleSheet.Proofs.Scanning.Lossless

/-!
# Counting bytes

What recognises a token counts characters.  Applied to the bytes of a text it counts bytes, and this
module proves that it then stops at the same place: the bytes it counts are those of the characters
that it counts in the text.  In the text itself only characters of ASCII matter.  All others are
passed over or end the count, whichever they are, and none of their bytes is in ASCII either.

A byte is represented by the character with its code (`octets`).
-/

namespace StyleSheet

namespace Text

/-! ### The bytes of a text -/

/-- The bytes that encode the characters, each as the character with its code. -/
def octets (cs : List Char) : List Char :=
  cs.flatMap fun c => (String.utf8EncodeChar c).map Char.ofUInt8

def IsAscii (c : Char) : Prop := c.toNat < 128

instance (c : Char) : Decidable (IsAscii c) := inferInstanceAs (Decidable (_ < _))

/-- An ASCII character is one byte. -/
lemma utf8Size_of_isAscii {c : Char} (h : IsAscii c) : c.utf8Size = 1 :=
  Char.utf8Size_eq_one_iff.mpr (UInt32.le_iff_toNat_le.mpr (Nat.le_of_lt_succ h))

/-- The bytes of two texts follow one another. -/
lemma octets_append (cs ds : List Char) : octets (cs ++ ds) = octets cs ++ octets ds :=
  List.flatMap_append

/-- The bytes of the first character come first. -/
lemma octets_cons (c : Char) (cs : List Char) : octets (c :: cs) = octets [c] ++ octets cs :=
  octets_append [c] cs

/-- There are as many bytes as the byte length says. -/
lemma length_octets (cs : List Char) : (octets cs).length = byteLength cs := by
  induction cs with
  | nil => rfl
  | cons c cs ih =>
    rw [octets_cons, List.length_append, ih]
    simp [octets, byteLength]

/-- A byte as a character has its own value. -/
lemma toNat_ofUInt8 (b : UInt8) : (Char.ofUInt8 b).toNat = b.toNat := by
  change b.toUInt32.toNat = b.toNat
  exact UInt8.toNat_toUInt32 b

/-- Only the empty text has no bytes. -/
lemma byteLength_eq_zero {cs : List Char} : byteLength cs = 0 ↔ cs = [] := by
  cases cs with
  | nil => simp [byteLength]
  | cons c cs => simp [byteLength, c.utf8Size_pos.ne']

/-- A character of ASCII is its own encoding. -/
lemma octets_cons_of_isAscii {c : Char} (h : IsAscii c) (cs : List Char) :
    octets (c :: cs) = c :: octets cs := by
  have hc : Char.ofUInt8 c.val.toUInt8 = c := by
    apply Char.toNat_inj.mp
    rw [toNat_ofUInt8, UInt32.toNat_toUInt8]
    exact Nat.mod_eq_of_lt (Nat.lt_trans h (by decide))
  rw [octets, List.flatMap_cons, String.utf8EncodeChar_eq_singleton (utf8Size_of_isAscii h),
    List.map_singleton, hc]
  rfl

/-- No byte of any other character is in ASCII. -/
lemma not_isAscii_of_mem_octets {c : Char} (h : ¬ IsAscii c) : ∀ b ∈ octets [c], ¬ IsAscii b := by
  have hv : ¬ c.val.toNat ≤ 127 := fun hle => h (Nat.lt_succ_of_le hle)
  have hencode : ∀ b ∈ String.utf8EncodeChar c, 128 ≤ b.toNat := by
    unfold String.utf8EncodeChar
    simp only [hv, if_false]
    split_ifs
    all_goals
      simp
      omega
  intro b hb
  simp only [octets, List.flatMap_singleton, List.mem_map] at hb
  obtain ⟨n, hn, rfl⟩ := hb
  rw [IsAscii, toNat_ofUInt8]
  exact Nat.not_lt.mpr (hencode n hn)

/-- The encoding of any other character starts with a byte. -/
lemma exists_octets_of_not_isAscii {c : Char} (h : ¬ IsAscii c) : ∃ b bs, octets [c] = b :: bs ∧
    bs.length + 1 = c.utf8Size ∧ ∀ a ∈ b :: bs, ¬ IsAscii a := by
  have hlength : (octets [c]).length = c.utf8Size := length_octets [c]
  cases hbytes : octets [c] with
  | nil =>
    rw [hbytes] at hlength
    exact absurd hlength.symm c.utf8Size_pos.ne'
  | cons b bs =>
    refine ⟨b, bs, rfl, by rw [← hlength, hbytes, List.length_cons], ?_⟩
    rw [← hbytes]
    exact not_isAscii_of_mem_octets h

/-- What is left behind some characters is encoded by the bytes that are left behind theirs. -/
lemma drop_octets (cs : List Char) (n : Nat) :
    (octets cs).drop (byteLength (cs.take n)) = octets (cs.drop n) := by
  have hsplit : octets cs = octets (cs.take n) ++ octets (cs.drop n) := by
    rw [← octets_append, List.take_append_drop]
  rw [hsplit, ← length_octets, List.drop_left]

/-- One more character adds the bytes of that character. -/
lemma byteLength_take_succ {cs : List Char} {n : Nat} {c : Char} {rest : List Char}
    (h : cs.drop n = c :: rest) :
    byteLength (cs.take (n + 1)) = byteLength (cs.take n) + c.utf8Size := by
  rw [List.take_add, byteLength_append, h]
  rfl

end Text

open Text

namespace Token

/-! ### Classes of characters -/

/-- The class does not tell characters outside of ASCII apart. -/
def Uniform (p : Char → Bool) : Prop := ∀ ⦃a b⦄, ¬ IsAscii a → ¬ IsAscii b → p a = p b

/-- All characters of the class are in ASCII. -/
def Plain (p : Char → Bool) : Prop := ∀ ⦃a⦄, ¬ IsAscii a → p a = false

/-- A class of ASCII characters treats all bytes of a character alike. -/
lemma Plain.uniform {p : Char → Bool} (h : Plain p) : Uniform p :=
  fun _ _ ha hb => (h ha).trans (h hb).symm

/-- Two classes of ASCII characters make one. -/
lemma Plain.or {p q : Char → Bool} (hp : Plain p) (hq : Plain q) : Plain fun c => p c || q c :=
  fun a ha => show (p a || q a) = false by rw [hp ha, hq ha]; rfl

/-- A single ASCII character is such a class. -/
lemma plain_beq {d : Char} (hd : IsAscii d) : Plain (· == d) := by
  intro a ha
  refine Bool.eq_false_iff.mpr fun h => ha ?_
  rwa [eq_of_beq h]

/-- Digits are ASCII characters. -/
lemma plain_isDigit : Plain Char.isDigit := by
  intro a ha
  simp only [IsAscii] at ha
  simp only [Char.isDigit, Bool.and_eq_false_iff, decide_eq_false_iff_not, ge_iff_le,
    UInt32.le_iff_toNat_le]
  simp
  omega

/-- Letters are ASCII characters. -/
lemma plain_isAlpha : Plain Char.isAlpha := by
  intro a ha
  simp only [IsAscii] at ha
  refine Bool.eq_false_iff.mpr fun h => ?_
  change (decide (a.val ≥ 'A'.val ∧ a.val ≤ 'Z'.val) ||
    (decide (a.val ≥ 'a'.val) && decide (a.val ≤ 'z'.val))) = true at h
  simp only [Bool.or_eq_true, Bool.and_eq_true, decide_eq_true_eq, ge_iff_le,
    UInt32.le_iff_toNat_le] at h
  simp at h
  omega

/-- Letters and digits are ASCII characters. -/
lemma plain_isAlphanum : Plain Char.isAlphanum := plain_isAlpha.or plain_isDigit

/-- What starts a name is an ASCII character. -/
lemma plain_isNameStart : Plain isNameStart := plain_isAlpha.or (plain_beq (by decide))

/-- What goes on with a name is an ASCII character. -/
lemma plain_isNameChar : Plain isNameChar :=
  (plain_isAlphanum.or (plain_beq (by decide))).or (plain_beq (by decide))

/-- Blanks are ASCII characters. -/
lemma plain_isBlank : Plain isBlank :=
  (((plain_beq (by decide)).or (plain_beq (by decide))).or (plain_beq (by decide))).or
    (plain_beq (by decide))

/-- Hexadecimal digits are ASCII characters. -/
lemma plain_isHexDigit : Plain isHexDigit := by
  intro a ha
  have hv : ¬ a.val.toNat < 128 := ha
  have hle : ∀ d : Char, IsAscii d → ¬ a ≤ d := by
    intro d hd hle
    have hle : a.val.toNat ≤ d.val.toNat := UInt32.le_iff_toNat_le.mp hle
    exact hv (Nat.lt_of_le_of_lt hle hd)
  simp [isHexDigit, plain_isDigit ha, hle 'f' (by decide), hle 'F' (by decide)]

/-- What starts a selector is an ASCII character. -/
lemma plain_startsSelector : Plain startsSelector :=
  (((((plain_isNameStart.or (plain_beq (by decide))).or (plain_beq (by decide))).or
    (plain_beq (by decide))).or (plain_beq (by decide))).or (plain_beq (by decide)))

/-! ### Runs -/

section Runs

variable {p : Char → Bool}

/-- The first byte is in a class just if the first character is. -/
lemma headIs_octets (hp : Uniform p) (cs : List Char) : headIs p (octets cs) = headIs p cs := by
  cases cs with
  | nil => rfl
  | cons c cs =>
    by_cases hc : IsAscii c
    · rw [octets_cons_of_isAscii hc]
      rfl
    · obtain ⟨b, bs, hbytes, -, hbs⟩ := exists_octets_of_not_isAscii hc
      rw [octets_cons, hbytes]
      exact hp (hbs b List.mem_cons_self) hc

/-- A text starts with an ASCII character exactly if its bytes do. -/
lemma head?_octets {d : Char} (hd : IsAscii d) (cs : List Char) :
    (octets cs).head? = some d ↔ cs.head? = some d := by
  have hhead := headIs_octets (plain_beq hd).uniform cs
  have hiff : ∀ ds : List Char, headIs (· == d) ds = true ↔ ds.head? = some d := by
    intro ds
    cases ds <;> simp [headIs]
  rw [← hiff, ← hiff, hhead]

/-- A run of bytes of a class is made of the bytes of a run of characters. -/
lemma runSize_octets (hp : Uniform p) (cs : List Char) :
    runSize p (octets cs) = byteLength (cs.take (runSize p cs)) := by
  induction cs with
  | nil => rfl
  | cons c cs ih =>
    by_cases hc : IsAscii c
    · rw [octets_cons_of_isAscii hc]
      by_cases hpc : p c = true
      · simp only [runSize, List.takeWhile_cons_of_pos hpc, List.length_cons,
          List.take_succ_cons, byteLength, utf8Size_of_isAscii hc] at ih ⊢
        omega
      · simp only [runSize, List.takeWhile_cons_of_neg hpc]
        rfl
    · obtain ⟨b, bs, hbytes, hsize, hbs⟩ := exists_octets_of_not_isAscii hc
      rw [octets_cons, hbytes]
      by_cases hpc : p c = true
      · have hall : ∀ a ∈ b :: bs, p a = true := fun a ha => (hp (hbs a ha) hc).trans hpc
        simp only [runSize, List.takeWhile_append_of_pos hall, List.takeWhile_cons_of_pos hpc,
          List.length_append, List.length_cons, List.take_succ_cons, byteLength] at ih ⊢
        omega
      · have hb : ¬ p b = true := by rwa [hp (hbs b List.mem_cons_self) hc]
        simp only [runSize, List.cons_append, List.takeWhile_cons_of_neg hb,
          List.takeWhile_cons_of_neg hpc]
        rfl

/-- Behind a run there is what is left without it. -/
lemma drop_runSize (p : Char → Bool) (cs : List Char) :
    cs.drop (runSize p cs) = cs.dropWhile p := by
  have h := List.takeWhile_append_dropWhile (p := p) (l := cs)
  rw [← take_runSize] at h
  exact (List.append_cancel_left (h.trans (List.take_append_drop (runSize p cs) cs).symm)).symm

/-- What follows a run is not of its class. -/
lemma headIs_drop_runSize (p : Char → Bool) (cs : List Char) :
    headIs p (cs.drop (runSize p cs)) = false := by
  rw [drop_runSize]
  cases h : cs.dropWhile p with
  | nil => rfl
  | cons c rest =>
    have hc := List.head?_dropWhile_not p cs
    rw [h] at hc
    simpa [headIs] using hc

/-- Behind a run of bytes there are the bytes of what is behind the run of characters. -/
lemma drop_runSize_octets (hp : Uniform p) (cs : List Char) :
    (octets cs).drop (runSize p (octets cs)) = octets (cs.drop (runSize p cs)) := by
  rw [runSize_octets hp, drop_octets]

end Runs

/-- A character that is not ASCII is none that is. -/
lemma ne_of_not_isAscii {a d : Char} (ha : ¬ IsAscii a) (hd : IsAscii d) : a ≠ d :=
  fun h => ha (h ▸ hd)

/-! ### Numbers, names and strings -/

/-- Without a point there is no fraction. -/
lemma fractionSize_of_head? {cs : List Char} (h : cs.head? ≠ some '.') : fractionSize cs = 0 := by
  unfold fractionSize
  split
  · exact absurd rfl h
  · rfl

/-- A fraction has the same characters in bytes. -/
lemma fractionSize_octets (cs : List Char) :
    fractionSize (octets cs) = byteLength (cs.take (fractionSize cs)) := by
  have hdot : IsAscii '.' := by decide
  by_cases hhead : cs.head? = some '.'
  · obtain ⟨rest, rfl⟩ := List.head?_eq_some_iff.mp hhead
    simp only [octets_cons_of_isAscii hdot, fractionSize, headIs_octets plain_isDigit.uniform,
      runSize_octets plain_isDigit.uniform]
    split
    · rw [List.take_succ_cons, byteLength, utf8Size_of_isAscii hdot, Nat.add_comm]
    · rfl
  · rw [fractionSize_of_head? hhead, fractionSize_of_head? (by rwa [ne_eq, head?_octets hdot])]
    rfl

/-- A unit without a percent sign is a run of letters. -/
lemma unitSize_of_head? {cs : List Char} (h : cs.head? ≠ some '%') :
    unitSize cs = runSize Char.isAlpha cs := by
  unfold unitSize
  split
  · exact absurd rfl h
  · rfl

/-- A unit has the same characters in bytes. -/
lemma unitSize_octets (cs : List Char) :
    unitSize (octets cs) = byteLength (cs.take (unitSize cs)) := by
  have hpercent : IsAscii '%' := by decide
  by_cases hhead : cs.head? = some '%'
  · obtain ⟨rest, rfl⟩ := List.head?_eq_some_iff.mp hhead
    rw [octets_cons_of_isAscii hpercent]
    rfl
  · rw [unitSize_of_head? hhead, unitSize_of_head? (by rwa [ne_eq, head?_octets hpercent]),
      runSize_octets plain_isAlpha.uniform]

/-- Two counts, one behind the other. -/
lemma byteLength_take_add (cs : List Char) (n m : Nat) :
    byteLength (cs.take (n + m)) = byteLength (cs.take n) + byteLength ((cs.drop n).take m) := by
  rw [List.take_add, byteLength_append]

/-- A number has the same characters in bytes. -/
lemma number_octets (cs : List Char) :
    number (octets cs) = ⟨(number cs).kind, byteLength (cs.take (number cs).more)⟩ := by
  simp only [number, runSize_octets plain_isDigit.uniform, drop_octets, fractionSize_octets,
    ← byteLength_take_add, unitSize_octets]

/-- A variable has the same characters in bytes. -/
lemma variableSize_octets (cs : List Char) :
    variableSize (octets cs) = byteLength (cs.take (variableSize cs)) := by
  induction cs with
  | nil => rfl
  | cons c cs ih =>
    by_cases hc : IsAscii c
    · rw [octets_cons_of_isAscii hc]
      simp only [variableSize, headIs_octets plain_isAlpha.uniform]
      split
      · rw [ih, List.take_succ_cons, byteLength, utf8Size_of_isAscii hc, Nat.add_comm]
      · rfl
    · obtain ⟨b, bs, hbytes, -, hbs⟩ := exists_octets_of_not_isAscii hc
      have hnone : ∀ a, ¬ IsAscii a → ∀ rest, variableSize (a :: rest) = 0 := by
        intro a ha rest
        simp [variableSize, plain_isAlphanum ha, ne_of_not_isAscii ha (show IsAscii '_' by decide),
          ne_of_not_isAscii ha (show IsAscii '-' by decide)]
      rw [octets_cons, hbytes, List.cons_append, hnone b (hbs b List.mem_cons_self), hnone c hc]
      rfl

/-- Without dashes in front, a dashed name is a name. -/
lemma dashedSize_of_head? {cs : List Char} (h : cs.head? ≠ some '-') :
    dashedSize cs = if headIs isNameStart cs then runSize isNameChar cs else 0 := by
  unfold dashedSize
  split
  · exact absurd rfl h
  · rfl

/-- A dashed name has the same characters in bytes. -/
lemma dashedSize_octets (cs : List Char) :
    dashedSize (octets cs) = byteLength (cs.take (dashedSize cs)) := by
  have hdash : IsAscii '-' := by decide
  by_cases hhead : cs.head? = some '-'
  · obtain ⟨rest, rfl⟩ := List.head?_eq_some_iff.mp hhead
    simp only [octets_cons_of_isAscii hdash, dashedSize, headIs_octets plain_isNameStart.uniform,
      runSize_octets plain_isNameChar.uniform]
    split
    · rw [List.take_succ_cons, byteLength, utf8Size_of_isAscii hdash, Nat.add_comm]
    · rfl
  · rw [dashedSize_of_head? hhead, dashedSize_of_head? (by rwa [ne_eq, head?_octets hdash]),
      headIs_octets plain_isNameStart.uniform, runSize_octets plain_isNameChar.uniform]
    split <;> rfl

/-- What is left behind a run has the same characters in bytes. -/
lemma dropWhile_octets {p : Char → Bool} (hp : Uniform p) (cs : List Char) :
    (octets cs).dropWhile p = octets (cs.dropWhile p) := by
  rw [← drop_runSize, ← drop_runSize, drop_runSize_octets hp]

/-- Behind blanks there is one colon and not two. -/
lemma colonFollows_eq (cs : List Char) : colonFollows cs =
    ((cs.dropWhile fun c => c == ' ' || c == '\t').head? == some ':' &&
      (cs.dropWhile fun c => c == ' ' || c == '\t').tail.head? != some ':') := by
  unfold colonFollows
  rcases cs.dropWhile _ with _ | ⟨c, _ | ⟨d, more⟩⟩
  · rfl
  · by_cases hc : c = ':'
    · subst hc
      rfl
    · simp [hc]
  · by_cases hc : c = ':'
    · subst hc
      by_cases hd : d = ':'
      · subst hd
        rfl
      · simp [hd]
    · simp [hc]

/-- The colon that follows a name, if it is not doubled. -/
lemma colonFollows_octets (cs : List Char) : colonFollows (octets cs) = colonFollows cs := by
  have hcolon : IsAscii ':' := by decide
  have hblank : Uniform fun c => c == ' ' || c == '\t' :=
    ((plain_beq (by decide)).or (plain_beq (by decide))).uniform
  rw [colonFollows_eq, colonFollows_eq, dropWhile_octets hblank]
  generalize cs.dropWhile _ = ds
  have hbeq (es : List Char) : ((octets es).head? == some ':') = (es.head? == some ':') := by
    rw [Bool.eq_iff_iff, beq_iff_eq, beq_iff_eq, head?_octets hcolon]
  by_cases hhead : ds.head? = some ':'
  · obtain ⟨rest, rfl⟩ := List.head?_eq_some_iff.mp hhead
    simp only [octets_cons_of_isAscii hcolon, List.head?_cons, List.tail_cons, bne, hbeq]
  · rw [hbeq, beq_eq_false_iff_ne.mpr hhead, Bool.false_and, Bool.false_and]

/-- What starts with a sign has the same characters in bytes. -/
lemma minus_octets (previous : Option Kind) (cs : List Char) :
    minus previous (octets cs) =
      ⟨(minus previous cs).kind, byteLength (cs.take (minus previous cs).more)⟩ := by
  have hpos : 0 < byteLength (cs.take (dashedSize cs)) ↔ 0 < dashedSize cs := by
    cases cs with
    | nil => rfl
    | cons c cs => simp [Nat.pos_iff_ne_zero, byteLength_eq_zero]
  simp only [minus, dashedSize_octets, drop_octets, colonFollows_octets, hpos]
  split <;> rfl

/-- The next character protects none. -/
lemma stringSize?_cons {quote c : Char} {rest : List Char} (h : c = '\\' → rest = []) :
    stringSize? quote (c :: rest) =
      if c == quote then some 1 else (stringSize? quote rest).map (· + 1) := by
  rw [stringSize?]
  rintro d more hc rfl
  cases h hc

/-- Between quotes bytes outside of ASCII are passed over. -/
lemma stringSize?_append {quote : Char} (hquote : IsAscii quote) {bs : List Char}
    (hbs : ∀ b ∈ bs, ¬ IsAscii b) (rest : List Char) :
    stringSize? quote (bs ++ rest) = (stringSize? quote rest).map (· + bs.length) := by
  induction bs with
  | nil => simp
  | cons b bs ih =>
    obtain ⟨hb, hbs⟩ := List.forall_mem_cons.mp hbs
    have hslash : b ≠ '\\' := ne_of_not_isAscii hb (by decide)
    have hopen : (b == quote) = false := plain_beq hquote hb
    rw [List.cons_append, stringSize?_cons (absurd · hslash), hopen, ih hbs]
    simp [Function.comp_def, Nat.add_assoc]

/-- A backslash protects one byte only, but the other bytes of a character need no protection. -/
lemma stringSize?_octets {quote : Char} (hquote : IsAscii quote) (cs : List Char) :
    stringSize? quote (octets cs) =
      (stringSize? quote cs).map fun n => byteLength (cs.take n) := by
  have hslash : IsAscii '\\' := by decide
  have hlast {c : Char} {rest : List Char}
      (h : ∀ d more, c = '\\' → rest = d :: more → False) : c = '\\' → octets rest = [] := by
    intro hc
    cases rest with
    | nil => rfl
    | cons d more => exact (h d more hc rfl).elim
  -- a character beyond ASCII takes a step for each of its bytes, none of which is a quote or a
  -- backslash
  fun_induction stringSize? quote cs with
  | case1 => rfl
  | case2 c rest ih =>
    rw [octets_cons_of_isAscii hslash, Option.map_map]
    by_cases hc : IsAscii c
    · rw [octets_cons_of_isAscii hc, stringSize?, ih, Option.map_map]
      congr 1
      funext n
      simp only [Function.comp, List.take_succ_cons, byteLength, utf8Size_of_isAscii hc,
        utf8Size_of_isAscii hslash]
      omega
    · obtain ⟨b, bs, hbytes, hsize, hbs⟩ := exists_octets_of_not_isAscii hc
      rw [octets_cons, hbytes, List.cons_append, stringSize?,
        stringSize?_append hquote fun a ha => hbs a (List.mem_cons_of_mem b ha), ih,
        Option.map_map, Option.map_map]
      congr 1
      funext n
      simp only [Function.comp, List.take_succ_cons, byteLength, utf8Size_of_isAscii hslash]
      omega
  | case3 c rest hnot hc =>
    obtain rfl := eq_of_beq hc
    rw [octets_cons_of_isAscii hquote, stringSize?_cons (hlast hnot), if_pos hc]
    simp [byteLength, utf8Size_of_isAscii hquote]
  | case4 c rest hnot hc ih =>
    by_cases hascii : IsAscii c
    · rw [octets_cons_of_isAscii hascii, stringSize?_cons (hlast hnot), if_neg hc, ih,
        Option.map_map, Option.map_map]
      congr 1
      funext n
      simp only [Function.comp, List.take_succ_cons, byteLength, utf8Size_of_isAscii hascii]
      omega
    · rw [octets_cons, stringSize?_append hquote (not_isAscii_of_mem_octets hascii), ih,
        Option.map_map, Option.map_map]
      congr 1
      funext n
      simp only [Function.comp, List.take_succ_cons, byteLength, length_octets]
      omega

/-! ### Compound selectors -/

/-- The state of a walk over the bytes of a text. -/
def CompoundState.inBytes (text : List Char) : CompoundState → CompoundState
  | .bracket opened quote => .bracket (byteLength (text.take opened)) quote
  | state => state

/-- The walk can go on with the text: marks and quotes are in ASCII. -/
def CompoundState.Fits (cs : List Char) : CompoundState → Prop
  | .mark => ∃ d more, cs = d :: more ∧ IsAscii d
  | .bracket _ quote => ∀ q ∈ quote, IsAscii q
  | _ => True

namespace Compound

variable {text rest : List Char} {c : Char} {s : Compound}

/-- The part of a compound selector that a walk over the bytes of a text has passed. -/
def inBytes (text : List Char) (s : Compound) : Compound :=
  { s with size := byteLength (text.take s.size) }

/-- One more ASCII character is one more byte. -/
lemma inBytes_grow (h : text.drop s.size = c :: rest) (hc : IsAscii c) :
    s.grow.inBytes text = (s.inBytes text).grow := by
  simp only [grow, inBytes, byteLength_take_succ h, utf8Size_of_isAscii hc]

/-- The walk inside of brackets passes over bytes outside of ASCII. -/
lemma scan_bracket_append {opened : Nat} {quote : Option Char} (hquote : ∀ q ∈ quote, IsAscii q)
    {bs : List Char} (hbs : ∀ b ∈ bs, ¬ IsAscii b) (rest : List Char) (s : Compound) :
    scan (.bracket opened quote) s (bs ++ rest) =
      scan (.bracket opened quote) { s with size := s.size + bs.length } rest := by
  induction bs generalizing s with
  | nil => rfl
  | cons b bs ih =>
    obtain ⟨hb, hbs⟩ := List.forall_mem_cons.mp hbs
    have hstep : scan (.bracket opened quote) s (b :: (bs ++ rest)) =
        scan (.bracket opened quote) s.grow (bs ++ rest) := by
      cases quote with
      | none =>
        simp [scan, ne_of_not_isAscii hb (show IsAscii ']' by decide),
          ne_of_not_isAscii hb (show IsAscii '"' by decide),
          ne_of_not_isAscii hb (show IsAscii '\'' by decide)]
      | some q => simp [scan, ne_of_not_isAscii hb (hquote q rfl)]
    rw [List.cons_append, hstep, ih hbs, grow, List.length_cons]
    simp only [Nat.add_assoc, Nat.add_comm 1]

/-- What a colon starts, by the first two characters behind it. -/
lemma startPart_colon (s : Compound) (rest : List Char) :
    s.startPart ':' rest =
      if rest.head? = some ':' then
        if headIs isNameStart rest.tail then some (.mark, { s.grow with hasSubcontrol := true })
        else none
      else if rest.head? = some '!' then some (.mark, { s.grow with hasState := true })
      else if headIs isNameStart rest then some (.name, { s.grow with hasState := true })
      else none := by
  rcases rest with _ | ⟨d, _ | ⟨e, more⟩⟩
  · rfl
  · by_cases hcolon : d = ':'
    · subst hcolon
      rfl
    · by_cases hbang : d = '!'
      · subst hbang
        rfl
      · simp [startPart, hcolon, hbang]
        rfl
  · by_cases hcolon : d = ':'
    · subst hcolon
      rfl
    · by_cases hbang : d = '!'
      · subst hbang
        rfl
      · simp [startPart, hcolon, hbang]
        rfl

/-- The same part starts in a text and in its bytes. -/
lemma startPart_octets (h : text.drop s.size = c :: rest) (hc : IsAscii c) :
    (s.inBytes text).startPart c (octets rest) =
      (s.startPart c rest).map fun p => (p.1.inBytes text, p.2.inBytes text) := by
  have hname := headIs_octets plain_isNameStart.uniform rest
  by_cases hcolon : c = ':'
  · subst hcolon
    simp only [startPart_colon, head?_octets (show IsAscii ':' by decide),
      head?_octets (show IsAscii '!' by decide), hname, ← inBytes_grow h hc]
    by_cases hdouble : rest.head? = some ':'
    · obtain ⟨more, rfl⟩ := List.head?_eq_some_iff.mp hdouble
      rw [octets_cons_of_isAscii (by decide)]
      simp only [List.head?_cons, List.tail_cons, if_true, headIs_octets plain_isNameStart.uniform]
      by_cases hstart : headIs isNameStart more = true
      · simp only [hstart, if_true]
        rfl
      · simp only [hstart]
        rfl
    · simp only [hdouble, if_false]
      split_ifs <;> rfl
  · have hcolon : (c == ':') = false := by simpa using hcolon
    simp only [startPart, hname, hcolon, ← inBytes_grow h hc]
    split_ifs <;> first | rfl | contradiction

/-- A part takes one character to start, and if its mark goes on, then with one of ASCII. -/
lemma fits_of_startPart {state : CompoundState} {s' : Compound}
    (h : s.startPart c rest = some (state, s')) : state.Fits rest ∧ s'.size = s.size + 1 := by
  by_cases hcolon : c = ':'
  · subst hcolon
    rw [startPart_colon] at h
    split_ifs at h with hdouble hsub hbang
    · obtain ⟨more, rfl⟩ := List.head?_eq_some_iff.mp hdouble
      cases h
      exact ⟨⟨':', more, rfl, by decide⟩, rfl⟩
    · obtain ⟨more, rfl⟩ := List.head?_eq_some_iff.mp hbang
      cases h
      exact ⟨⟨'!', more, rfl, by decide⟩, rfl⟩
    · cases h
      exact ⟨by simp [CompoundState.Fits], rfl⟩
  · have hcolon : (c == ':') = false := by simpa using hcolon
    simp only [startPart, hcolon, Bool.false_eq_true, if_false] at h
    split_ifs at h
    · cases h
      exact ⟨by simp [CompoundState.Fits], rfl⟩
    · cases h
      exact ⟨by simp [CompoundState.Fits], rfl⟩

/-- Outside of brackets a walk ends in front of a character that is not in ASCII. -/
lemma scan_of_not_isAscii {state : CompoundState} (hstate : state = .name ∨ state = .boundary)
    (hc : ¬ IsAscii c) (s : Compound) (rest : List Char) : scan state s (c :: rest) = .ok s := by
  have hpart : s.startPart c rest = none := by
    simp [startPart, ne_of_not_isAscii hc (show IsAscii '[' by decide),
      ne_of_not_isAscii hc (show IsAscii ':' by decide),
      ne_of_not_isAscii hc (show IsAscii '.' by decide),
      ne_of_not_isAscii hc (show IsAscii '#' by decide)]
  rcases hstate with rfl | rfl
  · simp [scan, plain_isNameChar hc, hpart]
  · simp [scan, hpart]

/-- The outcome of a walk over the bytes of a text. -/
def outcomeInBytes (text : List Char) : Except Nat Compound → Except Nat Compound
  | .ok s => .ok (s.inBytes text)
  | .error opened => .error (byteLength (text.take opened))

/-- Behind a name the same can follow as behind an attribute. -/
lemma scan_name_cons (s : Compound) (c : Char) (rest : List Char) : scan .name s (c :: rest) =
    if isNameChar c then scan .name s.grow rest else scan .boundary s (c :: rest) := rfl

/-- The walk over the bytes of a text ends where the walk over the text does. -/
lemma scan_octets {cs : List Char} (state : CompoundState) (hs : text.drop s.size = cs)
    (hstate : state.Fits cs) :
    scan (state.inBytes text) (s.inBytes text) (octets cs) =
      outcomeInBytes text (scan state s cs) := by
  induction cs generalizing state s with
  | nil => cases state <;> rfl
  | cons c rest ih =>
    have hrest : text.drop s.grow.size = rest := by
      rw [grow, ← List.drop_drop, hs]
      rfl
    by_cases hc : IsAscii c
    · have hgrow := inBytes_grow hs hc
      -- A part that starts here, or the end of the walk.
      have hpart : scan .boundary (s.inBytes text) (c :: octets rest) =
          outcomeInBytes text (scan .boundary s (c :: rest)) := by
        simp only [scan, startPart_octets hs hc]
        cases hstart : s.startPart c rest with
        | none => rfl
        | some p =>
          obtain ⟨hfits, hsize⟩ := fits_of_startPart hstart
          refine ih _ ?_ hfits
          rw [hsize]
          exact hrest
      rw [octets_cons_of_isAscii hc]
      cases state with
      | name =>
        simp only [CompoundState.inBytes, scan_name_cons]
        split
        · rw [← hgrow]
          exact ih .name hrest trivial
        · exact hpart
      | mark =>
        simp only [CompoundState.inBytes, scan, ← hgrow]
        exact ih .name hrest trivial
      | boundary => exact hpart
      | bracket opened quote =>
        cases quote with
        | some q =>
          simp only [CompoundState.inBytes, scan, ← hgrow]
          refine ih (.bracket opened (if c == q then none else some q)) hrest ?_
          split
          · simp [CompoundState.Fits]
          · exact hstate
        | none =>
          simp only [CompoundState.inBytes, scan, ← hgrow]
          split_ifs with hclose hquote
          · exact ih (s := { s.grow with hasAttribute := true }) .boundary hrest trivial
          · exact ih (.bracket opened (some c)) hrest (by simpa [CompoundState.Fits] using hc)
          · exact ih (.bracket opened none) hrest hstate
    · obtain ⟨b, bs, hbytes, hsize, hbs⟩ := exists_octets_of_not_isAscii hc
      have hb := hbs b List.mem_cons_self
      rw [octets_cons, hbytes]
      cases state with
      | name =>
        rw [scan_of_not_isAscii (.inl rfl) hc]
        exact scan_of_not_isAscii (.inl rfl) hb _ _
      | boundary =>
        rw [scan_of_not_isAscii (.inr rfl) hc]
        exact scan_of_not_isAscii (.inr rfl) hb _ _
      | mark =>
        obtain ⟨d, more, hcons, hd⟩ := hstate
        obtain ⟨rfl, -⟩ := List.cons.inj hcons
        exact absurd hd hc
      | bracket opened quote =>
        have hstep : scan (.bracket opened quote) s (c :: rest) =
            scan (.bracket opened quote) s.grow rest :=
          scan_bracket_append hstate (List.forall_mem_singleton.mpr hc) rest s
        have hgrow : s.grow.inBytes text =
            { s.inBytes text with size := (s.inBytes text).size + (b :: bs).length } := by
          simp only [grow, inBytes, byteLength_take_succ hs, List.length_cons, hsize]
        rw [CompoundState.inBytes, scan_bracket_append hstate hbs, ← hgrow, hstep]
        exact ih (.bracket opened quote) hrest hstate

end Compound

/-- What a state can start with, by whether its colon is doubled. -/
lemma startsState_eq (cs : List Char) :
    startsState cs = if cs.head? = some ':' then headIs isNameStart cs.tail
      else headIs (fun c => isNameStart c || c == '!') cs := by
  rcases cs with _ | ⟨c, _ | ⟨d, more⟩⟩
  · rfl
  · by_cases hcolon : c = ':'
    · subst hcolon
      rfl
    · simp [startsState, headIs, hcolon]
  · by_cases hcolon : c = ':'
    · subst hcolon
      rfl
    · simp [startsState, headIs, hcolon]

/-- Whether a state of a selector follows can be seen from the bytes. -/
lemma startsState_octets (cs : List Char) : startsState (octets cs) = startsState cs := by
  have hcolon : IsAscii ':' := by decide
  have hstate : Plain fun c => isNameStart c || c == '!' :=
    plain_isNameStart.or (plain_beq (by decide))
  simp only [startsState_eq, head?_octets hcolon, headIs_octets hstate.uniform]
  by_cases hhead : cs.head? = some ':'
  · obtain ⟨rest, rfl⟩ := List.head?_eq_some_iff.mp hhead
    rw [if_pos hhead, if_pos hhead, octets_cons_of_isAscii hcolon]
    exact headIs_octets plain_isNameStart.uniform rest
  · rw [if_neg hhead, if_neg hhead]

/-! ### What is recognised -/

section Recognised

variable {a : Char} {rest : List Char}

/-- What is recognised in the bytes of a text `a :: rest`. -/
def inBytes (a : Char) (rest : List Char) : Except LexemeError Lexeme → Except LexemeError Lexeme
  | .ok l => .ok ⟨l.kind, byteLength (rest.take l.more)⟩
  | .error (.unknown more) => .error (.unknown (byteLength (rest.take more)))
  | .error (.unterminated what before) =>
    .error (.unterminated what (byteLength ((a :: rest).take before)))

/-- A selector has the same characters in bytes. -/
lemma selector_octets (ha : IsAscii a) (rest : List Char) :
    selector a (octets rest) = inBytes a rest (selector a rest) := by
  have hmore (size : Nat) :
      byteLength ((a :: rest).take size) - 1 = byteLength (rest.take (size - 1)) := by
    cases size with
    | zero => rfl
    | succ n => simp [byteLength, utf8Size_of_isAscii ha]
  have hfirst : Compound.empty.grow.inBytes (a :: rest) = Compound.empty.grow := by
    simp [Compound.inBytes, Compound.grow, Compound.empty, byteLength, utf8Size_of_isAscii ha]
  have hwalk : (if a == '.' || a == '#' || a == '%' || a == '*' then
        Compound.scan .name Compound.empty.grow (octets rest)
      else Compound.scan .name Compound.empty (a :: octets rest)) =
      Compound.outcomeInBytes (a :: rest)
        (if a == '.' || a == '#' || a == '%' || a == '*' then
          Compound.scan .name Compound.empty.grow rest
        else Compound.scan .name Compound.empty (a :: rest)) := by
    split
    · have hscan :
          Compound.scan .name (Compound.empty.grow.inBytes (a :: rest)) (octets rest) = _ :=
        Compound.scan_octets (s := Compound.empty.grow) .name rfl trivial
      rwa [hfirst] at hscan
    · rw [← octets_cons_of_isAscii ha]
      exact Compound.scan_octets (s := .empty) .name rfl trivial
  unfold selector
  simp only [hwalk]
  generalize (if a == '.' || a == '#' || a == '%' || a == '*' then
    Compound.scan .name Compound.empty.grow rest
    else Compound.scan .name Compound.empty (a :: rest)) = walk
  cases walk with
  | error opened => rfl
  | ok s =>
    simp only [Compound.outcomeInBytes, Compound.inBytes, inBytes, hmore]
    rfl

/-- A string has the same characters in bytes. -/
lemma quotedString_octets (ha : IsAscii a) (rest : List Char) :
    quotedString a (octets rest) = inBytes a rest (quotedString a rest) := by
  unfold quotedString
  rw [stringSize?_octets ha]
  cases stringSize? a rest <;> rfl

/-- The token of a variable has the same characters in bytes. -/
lemma variableLexeme_octets (a : Char) (rest : List Char) :
    variableLexeme (octets rest) = inBytes a rest (variableLexeme rest) := by
  unfold variableLexeme
  rw [headIs_octets plain_isNameStart.uniform, variableSize_octets]
  split <;> rfl

end Recognised

end Token

end StyleSheet

import Mathlib.Data.List.DropRight
import Mathlib.Data.Prod.Lex
import StyleSheet.Proofs.Scanning.Lossless
import StyleSheet.Text.Lines

/-!
# Lines and columns are counted exactly

The line of an offset is told by the line feeds before it and its column by the characters behind
the last of them (`placeAfter`).  The table of line starts finds both: the starts up to an offset
are those of the text before it, and the last of them is where the last line of that text starts.
An offset inside a character is no exception to the first, since no line starts inside a
character.

Lines and columns are 32-bit words.  In a text whose offsets fit into a span there is one place at
most whose line or column is none: the end of a text of `2 ^ 32 - 1` bytes that are all line feeds,
or none of which is one and which are as many characters (`FillsWord`).  There the count goes on
with zero.
-/

namespace StyleSheet.Text

/-! ### The place behind a text -/

/-- What stands behind the last line feed. -/
def lastLine (cs : List Char) : List Char := cs.rtakeWhile (· != '\n')

/-- The lines that are ended, with their line feeds. -/
def closedLines (cs : List Char) : List Char := cs.rdropWhile (· != '\n')

/-- The UTF-8 encoding of characters. -/
def bytes (cs : List Char) : List UInt8 := cs.flatMap String.utf8EncodeChar

/-- The line and the column behind a text: there is one line more than line feeds among the bytes of
the text, and one column more than characters behind the last of them. -/
def placeAfter (cs : List Char) : Position :=
  ⟨1 + (bytes cs).count 10, 1 + (lastLine cs).length⟩

/-- The order of reading: by lines, and within a line by columns. -/
instance : LT Position := ⟨fun p q => toLex (p.line, p.column) < toLex (q.line, q.column)⟩

/-- Places are ordered by their line and then by their column. -/
lemma Position.lt_iff {p q : Position} :
    p < q ↔ p.line < q.line ∨ p.line = q.line ∧ p.column < q.column :=
  Prod.Lex.toLex_lt_toLex

/-- Line and column are 32-bit words. -/
def Position.Fits (p : Position) : Prop := p.line < 2 ^ 32 ∧ p.column < 2 ^ 32

/-- The text has as many line feeds, or as many characters on its only line, as there are offsets
behind the first one. -/
def FillsWord (cs : List Char) : Prop :=
  byteLength cs = 2 ^ 32 - 1 ∧
    ((∀ c ∈ cs, c = '\n') ∨ ∀ c ∈ cs, c ≠ '\n' ∧ c.utf8Size = 1)

/-- A text is its closed lines and its last line. -/
lemma closedLines_append_lastLine (cs : List Char) : closedLines cs ++ lastLine cs = cs :=
  List.rdropWhile_append_rtakeWhile

/-- The last line has no line feed. -/
lemma newline_notMem_lastLine (cs : List Char) : '\n' ∉ lastLine cs := by
  intro h
  exact absurd (List.mem_rtakeWhile_imp h) (by decide)

/-- Among the bytes of a character a line feed stands for itself only. -/
lemma count_utf8EncodeChar (c : Char) :
    (String.utf8EncodeChar c).count 10 = if c = '\n' then 1 else 0 := by
  have hc : c = '\n' ↔ c.val.toNat = 10 := by
    constructor
    · rintro rfl
      rfl
    · intro h
      exact Char.ext (UInt32.toNat_inj.mp h)
  have hbyte (n : Nat) : UInt8.ofNat n = 10 ↔ n % 256 = 10 := by
    rw [← UInt8.toNat_inj]
    simp
  simp only [hc, String.utf8EncodeChar]
  split_ifs <;> simp only [List.count_cons, List.count_nil, beq_iff_eq, hbyte] <;>
    split_ifs <;> omega

/-- There are as many line feeds among the bytes as among the characters. -/
lemma count_bytes (cs : List Char) : (bytes cs).count 10 = cs.count '\n' := by
  induction cs with
  | nil => rfl
  | cons c cs ih =>
    rw [bytes, List.flatMap_cons, List.count_append, count_utf8EncodeChar, List.count_cons]
    simp only [beq_iff_eq]
    rw [← ih, bytes, Nat.add_comm]

/-- A line feed at the end closes all lines, and any other character closes none. -/
lemma closedLines_concat (cs : List Char) (c : Char) :
    closedLines (cs ++ [c]) = if c = '\n' then cs ++ [c] else closedLines cs := by
  unfold closedLines
  rw [List.rdropWhile_concat]
  by_cases h : c = '\n' <;> simp [h]

/-- The closed lines are no longer than the text. -/
lemma byteLength_closedLines_le (cs : List Char) : byteLength (closedLines cs) ≤ byteLength cs := by
  have h := congrArg byteLength (closedLines_append_lastLine cs)
  rw [byteLength_append] at h
  omega

/-- A text has at least as many bytes as characters. -/
lemma length_le_byteLength (cs : List Char) : cs.length ≤ byteLength cs := by
  induction cs with
  | nil => exact Nat.le_refl _
  | cons c cs ih =>
    have hpos : 0 < c.utf8Size := c.utf8Size_pos
    simp only [List.length_cons, byteLength]
    omega

/-! ### The table of line starts -/

namespace Lines

/-- The lines that start in two parts of a text are those of the first and those of the second. -/
lemma startsAfter_append (offset : Nat) (cs ds : List Char) : startsAfter offset (cs ++ ds) =
    startsAfter offset cs ++ startsAfter (offset + byteLength cs) ds := by
  induction cs generalizing offset with
  | nil => rfl
  | cons c cs ih =>
    simp only [List.cons_append, startsAfter, byteLength]
    split_ifs with hc
    · obtain rfl := beq_iff_eq.mp hc
      rw [ih, List.cons_append, Nat.add_assoc]
      rfl
    · rw [ih, Nat.add_assoc]

/-- As many lines start as there are line feeds. -/
lemma length_startsAfter (offset : Nat) (cs : List Char) :
    (startsAfter offset cs).length = cs.count '\n' := by
  induction cs generalizing offset with
  | nil => rfl
  | cons c cs ih =>
    simp only [startsAfter, List.count_cons]
    split_ifs
    · rw [List.length_cons, ih]
    · rw [ih, Nat.add_zero]

/-- A line starts behind the offset that it is counted from. -/
lemma lt_of_mem_startsAfter {offset start : Nat} {cs : List Char}
    (hfit : offset + byteLength cs ≤ Span.maxOffset) (h : start ∈ startsAfter offset cs) :
    offset < start := by
  induction cs generalizing offset with
  | nil => cases h
  | cons c cs ih =>
    have hpos : 0 < c.utf8Size := c.utf8Size_pos
    simp only [byteLength] at hfit
    simp only [startsAfter] at h
    split_ifs at h with hc
    · obtain rfl := beq_iff_eq.mp hc
      have hnewline : ('\n' : Char).utf8Size = 1 := rfl
      rcases List.mem_cons.mp h with rfl | h
      · omega
      · have := ih (by omega) h
        omega
    · have := ih (by omega) h
      omega

/-- No line starts inside the first character. -/
lemma le_of_mem_startsAfter_cons {offset start : Nat} {c : Char} {cs : List Char}
    (hfit : offset + byteLength (c :: cs) ≤ Span.maxOffset)
    (h : start ∈ startsAfter offset (c :: cs)) : offset + c.utf8Size ≤ start := by
  simp only [byteLength] at hfit
  simp only [startsAfter] at h
  split_ifs at h with hc
  · obtain rfl := beq_iff_eq.mp hc
    have hnewline : ('\n' : Char).utf8Size = 1 := rfl
    rcases List.mem_cons.mp h with rfl | h
    · omega
    · have := lt_of_mem_startsAfter (by omega) h
      omega
  · have := lt_of_mem_startsAfter (by omega) h
    omega

/-- The starts of the lines of a text: the last one is the start of its last line. -/
lemma exists_starts_eq {cs : List Char} (hfit : byteLength cs ≤ Span.maxOffset) :
    ∃ init, 0 :: startsAfter 0 cs = init ++ [byteLength (closedLines cs)] ∧
      init.length = cs.count '\n' ∧ ∀ start ∈ init, start < byteLength (closedLines cs) := by
  induction cs using List.reverseRecOn with
  | nil => exact ⟨[], rfl, rfl, by simp⟩
  | append_singleton cs c ih =>
    have hsize : byteLength (cs ++ [c]) = byteLength cs + c.utf8Size := by
      rw [byteLength_append]
      rfl
    obtain ⟨init, hstarts, hlength, hlt⟩ := ih (by omega)
    have hle := byteLength_closedLines_le cs
    rw [startsAfter_append, closedLines_concat, ← List.cons_append, hstarts]
    split_ifs with hc
    · subst hc
      have hnewline : ('\n' : Char).utf8Size = 1 := rfl
      refine ⟨init ++ [byteLength (closedLines cs)], ?_, ?_, ?_⟩
      · have hmin : min (byteLength cs + 1) Span.maxOffset = byteLength (cs ++ ['\n']) := by omega
        simp [startsAfter, hmin]
      · simp [hlength]
      · intro start hstart
        rcases List.mem_append.mp hstart with h | h
        · have := hlt start h
          omega
        · obtain rfl := List.mem_singleton.mp h
          omega
    · refine ⟨init, ?_, ?_, hlt⟩
      · simp [startsAfter, hc]
      · simp [hlength, hc]

/-- An offset lies in the line of the last start that does not come later. -/
lemma lineOf_of_starts {l : Lines} {init later : List Nat} {last offset : Nat}
    (hstarts : l.starts = init ++ last :: later) (hinit : ∀ start ∈ init, start < last)
    (hlast : last ≤ offset) (hlater : ∀ start ∈ later, offset < start) :
    l.lineOf offset = ordinal init.length := by
  have hnotinit : offset ∉ init := fun h => by
    have := hinit offset h
    omega
  have hnotlater : offset ∉ later := fun h => by
    have := hlater offset h
    omega
  by_cases hhit : last = offset
  · subst hhit
    have hfound : l.starts.idxOf? last = some init.length := by
      rw [hstarts, List.idxOf?_eq_some_iff]
      refine ⟨by simp, by simp, fun j hj heq => hnotinit ?_⟩
      rw [List.getElem_append_left hj] at heq
      exact heq ▸ List.getElem_mem hj
    rw [lineOf, search, hfound]
  · -- no line starts right at the offset, so the starts before it are counted
    have hnone : l.starts.idxOf? offset = none := by
      rw [hstarts, List.idxOf?_eq_none_iff]
      simp [hnotinit, hnotlater, Ne.symm hhit]
    have hcount : l.starts.countP (· < offset) = init.length + 1 := by
      have hall : init.countP (· < offset) = init.length :=
        List.countP_eq_length.mpr fun start h => by
          have := hinit start h
          simp
          omega
      have hno : later.countP (· < offset) = 0 :=
        List.countP_eq_zero.mpr fun start h => by
          have := hlater start h
          simp
          omega
      have hlt : last < offset := by omega
      rw [hstarts, List.countP_append, List.countP_cons, hall, hno]
      simp [hlt]
    rw [lineOf, search, hnone, hcount]
    rfl

/-- Below the largest offset an ordinal is one more than its number. -/
lemma ordinal_of_lt {n : Nat} (h : n < Span.maxOffset) : ordinal n = n + 1 := by
  rw [ordinal, if_pos h.le, wordAfter, Nat.mod_eq_of_lt (by omega)]

/-- There is one line more than there are line feeds. -/
lemma count_ofText (source : String) : (ofText source).count = source.toList.count '\n' + 1 := by
  rw [count, ofText, List.length_cons, length_startsAfter]

section Position

variable {source : String} {before after : List Char} {offset : Nat}

/-- The starts of lines in a text with a beginning of it: those of the closed lines of the
beginning, that of its last line, and those of what follows. -/
lemma exists_starts_of_append (hsource : source.toList = before ++ after)
    (hsize : byteLength source.toList ≤ Span.maxOffset) :
    ∃ init, (ofText source).starts = init ++ byteLength (closedLines before) ::
        startsAfter (byteLength before) after ∧
      init.length = before.count '\n' ∧
      ∀ start ∈ init, start < byteLength (closedLines before) := by
  rw [hsource, byteLength_append] at hsize
  have hbefore : byteLength before ≤ Span.maxOffset := by omega
  obtain ⟨init, hinit, hlength, hbelow⟩ := exists_starts_eq hbefore
  refine ⟨init, ?_, hlength, hbelow⟩
  rw [ofText, hsource, startsAfter_append, ← List.cons_append, hinit, Nat.zero_add,
    List.append_assoc, List.singleton_append]

/-- The last line of a beginning starts behind its closed lines. -/
lemma start?_of_append (hsource : source.toList = before ++ after)
    (hsize : byteLength source.toList ≤ Span.maxOffset) :
    (ofText source).start? (before.count '\n' + 1) = some (byteLength (closedLines before)) := by
  obtain ⟨init, hstarts, hlength, -⟩ := exists_starts_of_append hsource hsize
  rw [start?, hstarts, ← hlength, List.getElem?_append_right (Nat.le_refl _), Nat.sub_self]
  rfl

/-- The line of an offset is told by the characters that end before it. -/
lemma lineOf_of_append (hsource : source.toList = before ++ after)
    (hsize : byteLength source.toList ≤ Span.maxOffset) (hle : byteLength before ≤ offset)
    (hlt : ∀ c cs, after = c :: cs → offset < byteLength before + c.utf8Size) :
    (ofText source).lineOf offset = ordinal (before.count '\n') := by
  have htotal : byteLength source.toList = byteLength before + byteLength after := by
    rw [hsource, byteLength_append]
  obtain ⟨init, hstarts, hlength, hbelow⟩ := exists_starts_of_append hsource hsize
  have hlater : ∀ start ∈ startsAfter (byteLength before) after, offset < start := by
    intro start hstart
    cases after with
    | nil => cases hstart
    | cons c cs =>
      have hfirst := hlt c cs rfl
      have hstart := le_of_mem_startsAfter_cons (by omega) hstart
      omega
  have hclosed := byteLength_closedLines_le before
  rw [lineOf_of_starts hstarts hbelow (Nat.le_trans hclosed hle) hlater, hlength]

/-- An offset in a line that has a number is looked up from the start of that line. -/
lemma position_of_append (hsource : source.toList = before ++ after)
    (hsize : byteLength source.toList ≤ Span.maxOffset) (hle : byteLength before ≤ offset)
    (hlt : ∀ c cs, after = c :: cs → offset < byteLength before + c.utf8Size)
    (hcount : before.count '\n' < Span.maxOffset) :
    (ofText source).position source offset = ⟨before.count '\n' + 1,
      ordinal (((slice? source.toList (byteLength (closedLines before))
        (max (min offset (byteLength source.toList)) (byteLength (closedLines before)))).map
          List.length).getD 0)⟩ := by
  have hline : (ofText source).lineOf offset = before.count '\n' + 1 := by
    rw [lineOf_of_append hsource hsize hle hlt, ordinal_of_lt hcount]
  simp only [position, hline, start?_of_append hsource hsize, Option.getD_some]

/-- A place that fits is found from its offset, and that of the end from every offset behind it. -/
lemma position_of_min (hsource : source.toList = before ++ after)
    (hsize : byteLength source.toList ≤ Span.maxOffset) (hfits : (placeAfter before).Fits)
    (hoffset : min offset (byteLength source.toList) = byteLength before) :
    (ofText source).position source offset = placeAfter before := by
  obtain ⟨hline, hcolumn⟩ := hfits
  simp only [placeAfter, count_bytes] at hline hcolumn
  have hmax : Span.maxOffset + 1 = 2 ^ 32 := rfl
  have htotal : byteLength source.toList = byteLength before + byteLength after := by
    rw [hsource, byteLength_append]
  have hlt : ∀ c cs, after = c :: cs → offset < byteLength before + c.utf8Size := by
    rintro c cs rfl
    have hpos : 0 < c.utf8Size := c.utf8Size_pos
    simp only [byteLength] at htotal
    omega
  have hclosed := byteLength_closedLines_le before
  have hslice : slice? source.toList (byteLength (closedLines before)) (byteLength before) =
      some (lastLine before) := by
    have hsplit : source.toList = closedLines before ++ (lastLine before ++ after) := by
      rw [← List.append_assoc, closedLines_append_lastLine, hsource]
    have hlast : byteLength before =
        byteLength (closedLines before) + byteLength (lastLine before) := by
      rw [← byteLength_append, closedLines_append_lastLine]
    rw [hsplit, hlast]
    exact slice?_byteLength _ _ _
  rw [position_of_append hsource hsize (by omega) hlt (by omega), hoffset, Nat.max_eq_left hclosed,
    hslice]
  simp only [Option.map_some, Option.getD_some, placeAfter, count_bytes]
  rw [ordinal_of_lt (by omega), Nat.add_comm _ 1, Nat.add_comm _ 1]

end Position

end Lines

/-! ### Places that fit -/

/-- A text of characters of one byte has as many of both. -/
lemma length_eq_byteLength {cs : List Char} (h : ∀ c ∈ cs, c.utf8Size = 1) :
    cs.length = byteLength cs := by
  induction cs with
  | nil => rfl
  | cons c cs ih =>
    have hrest := ih fun d hd => h d (List.mem_cons_of_mem c hd)
    rw [List.length_cons, byteLength, h c List.mem_cons_self, hrest, Nat.add_comm]

/-- A text with as many bytes as characters has characters of one byte only. -/
lemma utf8Size_eq_one_of_byteLength_le {cs : List Char} (h : byteLength cs ≤ cs.length) :
    ∀ c ∈ cs, c.utf8Size = 1 := by
  induction cs with
  | nil => exact fun _ hc => absurd hc List.not_mem_nil
  | cons c cs ih =>
    have hpos : 0 < c.utf8Size := c.utf8Size_pos
    have hle := length_le_byteLength cs
    simp only [byteLength, List.length_cons] at h
    intro d hd
    rcases List.mem_cons.mp hd with rfl | hd
    · omega
    · exact ih (by omega) d hd

/-- The last line is the whole text only if there is no other one. -/
lemma newline_notMem_of_length_le {cs : List Char} (h : cs.length ≤ (lastLine cs).length) :
    '\n' ∉ cs := by
  have hwhole : lastLine cs = cs := (List.rtakeWhile_suffix _ _).eq_of_length_le h
  rw [← hwhole]
  exact newline_notMem_lastLine cs

/-- The place behind a text fits unless the text fills a word. -/
lemma fits_of_not_fillsWord {cs : List Char} (hsize : byteLength cs ≤ Span.maxOffset)
    (h : ¬ FillsWord cs) : (placeAfter cs).Fits := by
  have hmax : Span.maxOffset + 1 = 2 ^ 32 := rfl
  have hlength := length_le_byteLength cs
  have hcount : cs.count '\n' ≤ cs.length := List.count_le_length
  have hlast : (lastLine cs).length ≤ cs.length := (List.rtakeWhile_suffix _ _).length_le
  simp only [Position.Fits, placeAfter, count_bytes]
  by_contra hfits
  refine h ⟨by omega, ?_⟩
  by_cases hlines : cs.count '\n' < Span.maxOffset
  · have hnone : '\n' ∉ cs := newline_notMem_of_length_le (by omega)
    have hnarrow : ∀ c ∈ cs, c.utf8Size = 1 := utf8Size_eq_one_of_byteLength_le (by omega)
    exact .inr fun c hc => ⟨fun heq => hnone (heq ▸ hc), hnarrow c hc⟩
  · have hall := List.count_eq_length.mp (show cs.count '\n' = cs.length by omega)
    exact .inl fun c hc => (hall c hc).symm

/-- A text that fills a word is as long as a text can be. -/
lemma eq_nil_of_fillsWord {before after : List Char} (h : FillsWord before)
    (hsize : byteLength (before ++ after) ≤ Span.maxOffset) : after = [] := by
  have hmax : Span.maxOffset + 1 = 2 ^ 32 := rfl
  have hlength := length_le_byteLength after
  have hbefore := h.1
  rw [byteLength_append] at hsize
  exact List.eq_nil_of_length_eq_zero (by omega)

/-- All places but the one behind `2 ^ 32 - 1` bytes fit. -/
lemma fits_placeAfter {cs : List Char} (h : byteLength cs < Span.maxOffset) :
    (placeAfter cs).Fits := by
  have hmax : Span.maxOffset + 1 = 2 ^ 32 := rfl
  refine fits_of_not_fillsWord h.le fun hfills => ?_
  have hlong := hfills.1
  omega

/-! ### Places in order -/

/-- What has no line feed only makes the last line longer. -/
lemma lastLine_append {ds : List Char} (h : '\n' ∉ ds) (cs : List Char) :
    lastLine (cs ++ ds) = lastLine cs ++ ds := by
  have hall : ∀ c ∈ ds.reverse, (c != '\n') = true := by
    intro c hc
    exact bne_iff_ne.mpr fun heq => h (heq ▸ List.mem_reverse.mp hc)
  rw [lastLine, List.rtakeWhile, List.reverse_append, List.takeWhile_append_of_pos hall,
    List.reverse_append, List.reverse_reverse]
  rfl

/-- A longer text ends at a later place: on a later line if a line feed is added, and else further
on in the same line. -/
lemma placeAfter_lt_append (cs : List Char) {ds : List Char} (h : ds ≠ []) :
    placeAfter cs < placeAfter (cs ++ ds) := by
  rw [Position.lt_iff]
  simp only [placeAfter, count_bytes, List.count_append]
  by_cases hmem : '\n' ∈ ds
  · have hpos := List.count_pos_iff.mpr hmem
    exact .inl (by omega)
  · have hpos := List.length_pos_iff.mpr h
    refine .inr ⟨by rw [List.count_eq_zero_of_not_mem hmem, Nat.add_zero], ?_⟩
    rw [lastLine_append hmem, List.length_append]
    omega

/-- Of two beginnings of a text the one with more bytes goes on with the other. -/
lemma exists_append_of_byteLength_le {before after before' after' : List Char}
    (h : before ++ after = before' ++ after') (hle : byteLength before ≤ byteLength before') :
    ∃ ds, before' = before ++ ds := by
  rcases List.append_eq_append_iff.mp h with ⟨ds, rfl, -⟩ | ⟨ds, rfl, -⟩
  · exact ⟨ds, rfl⟩
  · rw [byteLength_append] at hle
    have hlength := length_le_byteLength ds
    have hnil : ds = [] := List.length_eq_zero_iff.mp (by omega)
    exact ⟨[], by rw [hnil, List.append_nil, List.append_nil]⟩

/-- Of two first parts of a text the one with more bytes goes further. -/
lemma exists_append_of_byteLength_lt {before after before' after' : List Char}
    (h : before ++ after = before' ++ after') (hlt : byteLength before < byteLength before') :
    ∃ ds, ds ≠ [] ∧ before' = before ++ ds := by
  obtain ⟨ds, rfl⟩ := exists_append_of_byteLength_le h hlt.le
  refine ⟨ds, ?_, rfl⟩
  rintro rfl
  rw [List.append_nil] at hlt
  exact absurd hlt (Nat.lt_irrefl _)

/-- The characters that end before an offset. -/
lemma exists_append_le (cs : List Char) (offset : Nat) :
    ∃ before after, cs = before ++ after ∧ byteLength before ≤ offset ∧
      ∀ d ds, after = d :: ds → offset < byteLength before + d.utf8Size := by
  induction cs generalizing offset with
  | nil => exact ⟨[], [], rfl, Nat.zero_le _, nofun⟩
  | cons c cs ih =>
    by_cases h : c.utf8Size ≤ offset
    · obtain ⟨before, after, rfl, hle, hlt⟩ := ih (offset - c.utf8Size)
      refine ⟨c :: before, after, rfl, ?_, fun d ds hafter => ?_⟩
      · simp only [byteLength]
        omega
      · have := hlt d ds hafter
        simp only [byteLength]
        omega
    · refine ⟨[], c :: cs, rfl, Nat.zero_le _, ?_⟩
      rintro d ds ⟨⟩
      simp only [byteLength]
      omega

/-- As many bytes are taken as are asked for. -/
lemma byteLength_of_takeBytes? {cs ds : List Char} {n : Nat} (h : takeBytes? cs n = some ds) :
    byteLength ds = n := by
  fun_induction takeBytes? cs n generalizing ds with
  | case1 =>
    obtain rfl := Option.some.inj h
    rfl
  | case2 => cases h
  | case3 c cs n hle ih =>
    obtain ⟨es, hes, rfl⟩ := Option.map_eq_some_iff.mp h
    have := ih hes
    simp only [byteLength]
    omega
  | case4 => cases h

/-- There are no more characters between two offsets than bytes. -/
lemma length_slice?_le (cs : List Char) (start stop : Nat) :
    ((slice? cs start stop).map List.length).getD 0 ≤ stop - start := by
  cases hslice : slice? cs start stop with
  | none => exact Nat.zero_le _
  | some ds =>
    unfold slice? at hslice
    split at hslice
    · obtain ⟨es, -, hes⟩ := Option.bind_eq_some_iff.mp hslice
      have hbytes := byteLength_of_takeBytes? hes
      have hlength := length_le_byteLength ds
      simp only [Option.map_some, Option.getD_some]
      omega
    · cases hslice

namespace Lines

/-- Every offset has a line of the text and a column, also one inside a character or behind the
end. -/
lemma position_bounds {source : String} (hsize : byteLength source.toList ≤ Span.maxOffset)
    {offset : Nat} (hend : byteLength source.toList ≤ offset → (placeAfter source.toList).Fits) :
    1 ≤ ((ofText source).position source offset).line ∧
      ((ofText source).position source offset).line ≤ (ofText source).count ∧
      1 ≤ ((ofText source).position source offset).column := by
  obtain ⟨before, after, hsource, hle, hlt⟩ := exists_append_le source.toList offset
  rw [count_ofText]
  cases after with
  | nil =>
    rw [List.append_nil] at hsource
    rw [← hsource] at hle
    rw [position_of_min (List.append_nil _).symm hsize (hend hle) (Nat.min_eq_right hle)]
    simp only [placeAfter, count_bytes]
    omega
  | cons c cs =>
    have hlt := hlt c cs rfl
    have htotal : byteLength source.toList = byteLength before + byteLength (c :: cs) := by
      rw [hsource, byteLength_append]
    simp only [byteLength] at htotal
    have hcount : before.count '\n' ≤ source.toList.count '\n' := by
      rw [hsource, List.count_append]
      exact Nat.le_add_right _ _
    have hfew : before.count '\n' ≤ byteLength before :=
      Nat.le_trans List.count_le_length (length_le_byteLength before)
    have hcolumn := length_slice?_le source.toList (byteLength (closedLines before))
      (max (min offset (byteLength source.toList)) (byteLength (closedLines before)))
    have hclosed := byteLength_closedLines_le before
    rw [position_of_append hsource hsize hle (by rintro d ds ⟨⟩; exact hlt) (by omega)]
    dsimp only
    rw [ordinal_of_lt (by omega)]
    omega

/-! ### The end of a text that fills a word -/

/-- Behind the largest word the count goes on with zero. -/
lemma ordinal_maxOffset : ordinal Span.maxOffset = 0 := by
  rw [ordinal, if_pos (Nat.le_refl _), wordAfter, Nat.mod_self]

/-- The characters up to the end of the text. -/
lemma slice?_to_end (cs : List Char) : slice? cs 0 (byteLength cs) = some cs := by
  have h := slice?_byteLength [] cs []
  rwa [List.nil_append, List.append_nil, byteLength, Nat.zero_add] at h

/-- The end of `2 ^ 32 - 1` characters has the column zero, if its line is taken to start at the
beginning of the text. -/
lemma position_of_start_eq_zero {source : String} {line : Nat}
    (hsize : byteLength source.toList = Span.maxOffset)
    (hnarrow : ∀ c ∈ source.toList, c.utf8Size = 1)
    (hline : (ofText source).lineOf Span.maxOffset = line)
    (hstart : ((ofText source).start? line).getD 0 = 0) :
    (ofText source).position source Span.maxOffset = ⟨line, 0⟩ := by
  have hlength : source.toList.length = Span.maxOffset := by
    rw [length_eq_byteLength hnarrow, hsize]
  have hslice : slice? source.toList 0 Span.maxOffset = some source.toList := by
    rw [← hsize, slice?_to_end]
  have hstop : max (min Span.maxOffset (byteLength source.toList)) 0 = Span.maxOffset := by
    rw [hsize, Nat.min_self, Nat.max_eq_left (Nat.zero_le _)]
  simp only [position, hline, hstart, hstop, hslice, Option.map_some, Option.getD_some, hlength,
    ordinal_maxOffset]

/-- Behind `2 ^ 32 - 1` line feeds there is no line left, and the column is looked for in all that
stands before: both are zero. -/
lemma position_of_lineFeeds {source : String} (hsize : byteLength source.toList = Span.maxOffset)
    (hall : ∀ c ∈ source.toList, c = '\n') :
    (ofText source).position source Span.maxOffset = ⟨0, 0⟩ := by
  have hnarrow : ∀ c ∈ source.toList, c.utf8Size = 1 := by
    intro c hc
    rw [hall c hc]
    rfl
  have hcount : source.toList.count '\n' = Span.maxOffset := by
    rw [List.count_eq_length.mpr fun c hc => (hall c hc).symm, length_eq_byteLength hnarrow, hsize]
  have hline : (ofText source).lineOf Span.maxOffset = 0 := by
    rw [lineOf_of_append (List.append_nil _).symm hsize.le hsize.le nofun, hcount,
      ordinal_maxOffset]
  exact position_of_start_eq_zero hsize hnarrow hline rfl

/-- Behind `2 ^ 32 - 1` characters of one line there is no column left. -/
lemma position_of_oneLine {source : String} (hsize : byteLength source.toList = Span.maxOffset)
    (hall : ∀ c ∈ source.toList, c ≠ '\n' ∧ c.utf8Size = 1) :
    (ofText source).position source Span.maxOffset = ⟨1, 0⟩ := by
  have hcount : source.toList.count '\n' = 0 :=
    List.count_eq_zero_of_not_mem fun h => (hall _ h).1 rfl
  have hline : (ofText source).lineOf Span.maxOffset = 1 := by
    rw [lineOf_of_append (List.append_nil _).symm hsize.le hsize.le nofun, hcount]
    exact ordinal_of_lt (by decide)
  exact position_of_start_eq_zero hsize (fun c hc => (hall c hc).2) hline rfl

section Places

variable {source : String} {before after before' after' : List Char}

/-- Where a character starts or the text ends, the place is the one behind the text before. -/
lemma position_eq_placeAfter (hsize : byteLength source.toList ≤ Span.maxOffset)
    (hsource : source.toList = before ++ after) (hfills : ¬ FillsWord before) :
    (ofText source).position source (byteLength before) = placeAfter before := by
  have hle : byteLength before ≤ byteLength source.toList := by
    rw [hsource, byteLength_append]
    exact Nat.le_add_right _ _
  exact position_of_min hsource hsize (fits_of_not_fillsWord (hle.trans hsize) hfills)
    (Nat.min_eq_left hle)

/-- Later offsets have later places. -/
lemma position_lt_of_byteLength_lt (hsize : byteLength source.toList ≤ Span.maxOffset)
    (h : source.toList = before ++ after) (h' : source.toList = before' ++ after')
    (hfills : ¬ FillsWord before) (hfills' : ¬ FillsWord before')
    (hlt : byteLength before < byteLength before') :
    (ofText source).position source (byteLength before) <
      (ofText source).position source (byteLength before') := by
  rw [position_eq_placeAfter hsize h hfills, position_eq_placeAfter hsize h' hfills']
  -- of the two texts before the places, one goes on where the other ends
  obtain ⟨ds, hds, rfl⟩ := exists_append_of_byteLength_lt (h.symm.trans h') hlt
  exact placeAfter_lt_append before hds

/-- Behind a text that fills a word nothing follows, and there is no line or no column left. -/
lemma position_of_fillsWord (hsize : byteLength source.toList ≤ Span.maxOffset)
    (hsource : source.toList = before ++ after) (hfills : FillsWord before) :
    after = [] ∧ (ofText source).position source (byteLength before) =
      if '\n' ∈ before then ⟨0, 0⟩ else ⟨1, 0⟩ := by
  obtain rfl := eq_nil_of_fillsWord hfills (hsource ▸ hsize)
  rw [List.append_nil] at hsource
  obtain ⟨hlength, hall⟩ := hfills
  rw [hlength, ← hsource]
  rw [← hsource] at hlength hall
  refine ⟨rfl, ?_⟩
  rcases hall with hall | hall
  · have hmem : '\n' ∈ source.toList := by
      cases hcs : source.toList with
      | nil =>
        rw [hcs] at hlength
        cases hlength
      | cons c cs =>
        rw [hcs] at hall
        rw [hall c List.mem_cons_self]
        exact List.mem_cons_self
    rw [if_pos hmem]
    exact position_of_lineFeeds hlength hall
  · rw [if_neg fun hmem => (hall _ hmem).1 rfl]
    exact position_of_oneLine hlength hall

end Places

/-- At every offset where a character starts or the text ends, the line is one more than the line
feeds before it and the column one more than the characters behind the last of them.  Later offsets
have later places, so that different offsets have different places.  Every offset whatever has a
line of the text and a column.

The end of a text that fills a word is the only exception to all this.  The text has `2 ^ 32 - 1`
bytes, so that the end is its last offset; there the line and the column are zero behind line feeds,
and the column is zero behind the characters of one line. -/
theorem position_exact (source : String) (hsize : source.utf8ByteSize < 2 ^ 32) :
    (∀ before after, source.toList = before ++ after → ¬ FillsWord before →
      (ofText source).position source (byteLength before) = placeAfter before) ∧
    (∀ before after before' after', source.toList = before ++ after →
      source.toList = before' ++ after' → ¬ FillsWord before → ¬ FillsWord before' →
        (byteLength before < byteLength before' →
          (ofText source).position source (byteLength before) <
            (ofText source).position source (byteLength before')) ∧
        (byteLength before ≠ byteLength before' →
          (ofText source).position source (byteLength before) ≠
            (ofText source).position source (byteLength before'))) ∧
    (∀ offset, (FillsWord source.toList → offset < source.utf8ByteSize) →
      1 ≤ ((ofText source).position source offset).line ∧
      ((ofText source).position source offset).line ≤ (ofText source).count ∧
      1 ≤ ((ofText source).position source offset).column) ∧
    ∀ before after, source.toList = before ++ after → FillsWord before →
      after = [] ∧ (ofText source).position source (byteLength before) =
        if '\n' ∈ before then ⟨0, 0⟩ else ⟨1, 0⟩ := by
  have hmax : Span.maxOffset + 1 = 2 ^ 32 := rfl
  have hfit : byteLength source.toList ≤ Span.maxOffset := by
    rw [byteLength_toList]
    omega
  refine ⟨?_, ?_, fun offset hend => ?_, ?_⟩
  · exact fun before after hsource hfills => position_eq_placeAfter hfit hsource hfills
  · intro before after before' after' h h' hfills hfills'
    refine ⟨position_lt_of_byteLength_lt hfit h h' hfills hfills', fun hne heq => ?_⟩
    rcases Nat.lt_or_gt_of_ne hne with hlt | hlt
    · have hplace := position_lt_of_byteLength_lt hfit h h' hfills hfills' hlt
      rw [heq, Position.lt_iff] at hplace
      omega
    · have hplace := position_lt_of_byteLength_lt hfit h' h hfills' hfills hlt
      rw [heq, Position.lt_iff] at hplace
      omega
  · -- only behind the end can the place be the one that a filled word leaves
    refine position_bounds hfit fun hbehind => fits_of_not_fillsWord hfit fun hfills => ?_
    have hbefore := hend hfills
    rw [← byteLength_toList] at hbefore
    omega
  · exact fun before after hsource hfills => position_of_fillsWord hfit hsource hfills

/-- The start of the last character of a text with characters of several bytes and an empty line, an
offset inside of such a character, and one behind the end. -/
theorem position_exact_wideText :
    (ofText "$é\n\n日b").position "$é\n\n日b" 8 = ⟨3, 2⟩ ∧
    (ofText "$é\n\n日b").position "$é\n\n日b" 4 < (ofText "$é\n\n日b").position "$é\n\n日b" 8 ∧
    1 ≤ ((ofText "$é\n\n日b").position "$é\n\n日b" 6).column ∧
    ((ofText "$é\n\n日b").position "$é\n\n日b" 100).line ≤ 3 := by
  obtain ⟨hexact, hlater, hbounds, -⟩ := position_exact "$é\n\n日b" (by decide)
  have hshort : ∀ {cs : List Char}, byteLength cs < 20 → ¬ FillsWord cs := by
    intro cs h hfills
    have hlong := hfills.1
    omega
  refine ⟨?_, ?_, ?_, ?_⟩
  · exact hexact ['$', 'é', '\n', '\n', '日'] ['b'] (by decide) (hshort (by decide))
  · exact (hlater ['$', 'é', '\n'] ['\n', '日', 'b'] ['$', 'é', '\n', '\n', '日'] ['b'] (by decide)
      (by decide) (hshort (by decide)) (hshort (by decide))).1 (by decide)
  · exact (hbounds 6 fun _ => by decide).2.2
  · exact (hbounds 100 fun h => absurd h (hshort (by decide))).2.1

/-- A text of `2 ^ 32 - 1` line feeds. -/
def lineFeeds : String := String.ofList (List.replicate 4294967295 '\n')

/-- The end of this text stands behind `2 ^ 32 - 1` line feeds, and should be in the next line and
the first column.  It gets the line zero and the column zero, which do not exist. -/
theorem position_lineFeeds_ne_placeAfter :
    lineFeeds.utf8ByteSize < 2 ^ 32 ∧ placeAfter lineFeeds.toList = ⟨4294967296, 1⟩ ∧
      (ofText lineFeeds).position lineFeeds lineFeeds.utf8ByteSize = ⟨0, 0⟩ := by
  have hlist : lineFeeds.toList = List.replicate 4294967295 '\n' := String.toList_ofList
  have hall : ∀ c ∈ lineFeeds.toList, c = '\n' := by
    intro c hc
    rw [hlist] at hc
    exact List.eq_of_mem_replicate hc
  have hnarrow : ∀ c ∈ lineFeeds.toList, c.utf8Size = 1 := by
    intro c hc
    rw [hall c hc]
    rfl
  have hlength : byteLength lineFeeds.toList = Span.maxOffset := by
    rw [← length_eq_byteLength hnarrow, hlist, List.length_replicate]
    rfl
  have hcount : lineFeeds.toList.count '\n' = 4294967295 := by
    rw [hlist, List.count_replicate_self]
  have hlast : lastLine lineFeeds.toList = [] := by
    refine List.eq_nil_iff_forall_not_mem.mpr fun c hc => ?_
    have hmem : c ∈ lineFeeds.toList := (List.rtakeWhile_suffix _ _).subset hc
    rw [hall c hmem] at hc
    exact newline_notMem_lastLine _ hc
  refine ⟨?_, ?_, ?_⟩
  · rw [← byteLength_toList, hlength]
    decide
  · rw [placeAfter, count_bytes, hcount, hlast]
    rfl
  · rw [← byteLength_toList, hlength]
    exact position_of_lineFeeds hlength hall

end Lines

end StyleSheet.Text

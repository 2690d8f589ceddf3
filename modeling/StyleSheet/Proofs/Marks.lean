import StyleSheet.Diagnostic.Snippet
import StyleSheet.Proofs.Lines

/-!
# Texts that are marked in a source

A diagnostic points to a text in the source.  What is printed for it shows the line that the text
starts in, and under this line as many carets as the text has characters (`Diagnostic.report`).  The
line is shown without the carriage returns at its end, and only up to its line feed, while the text
can go on behind both.  The carets stay under the line just if all of the text but its last
character is shown (`Mark.isUnderLine_iff`).
-/

namespace StyleSheet

namespace Text

/-! ### The line that is shown -/

/-- What stands before the first line feed. -/
def firstLine (cs : List Char) : List Char := cs.takeWhile (· != '\n')

/-- A text without a line feed is its first line. -/
lemma firstLine_of_notMem {cs : List Char} (h : '\n' ∉ cs) : firstLine cs = cs := by
  refine List.takeWhile_eq_self_iff.mpr fun c hc => bne_iff_ne.mpr ?_
  rintro rfl
  exact h hc

/-- What has no line feed only makes the first line longer. -/
lemma firstLine_append {cs : List Char} (h : '\n' ∉ cs) (ds : List Char) :
    firstLine (cs ++ ds) = cs ++ firstLine ds := by
  refine List.takeWhile_append_of_pos fun c hc => bne_iff_ne.mpr ?_
  rintro rfl
  exact h hc

/-- The first line has no line feed. -/
lemma newline_notMem_firstLine (cs : List Char) : '\n' ∉ firstLine cs := by
  intro h
  exact absurd (List.mem_takeWhile_imp h) (by decide)

/-- In a line only carriage returns are line ends. -/
lemma rdropWhile_lineEnd {cs : List Char} (h : '\n' ∉ cs) :
    cs.rdropWhile (fun c => c == '\n' || c == '\r') = cs.rdropWhile (· == '\r') := by
  induction cs using List.reverseRecOn with
  | nil => rfl
  | append_singleton cs c ih =>
    rw [List.mem_append, List.mem_singleton, not_or] at h
    have hc : (c == '\n') = false := beq_eq_false_iff_ne.mpr (Ne.symm h.2)
    rw [List.rdropWhile_concat, List.rdropWhile_concat, hc, Bool.false_or, ih h.1]

/-- A text in a source: what stands before it, the text, and what follows it. -/
structure Mark (source : String) where
  before : List Char
  marked : List Char
  after : List Char
  toList_eq : source.toList = before ++ (marked ++ after)

namespace Mark

variable {source : String} (m : Mark source)

def span : Span := ⟨byteLength m.before, byteLength m.before + byteLength m.marked⟩

/-- The line that the marked text starts in, with all that ends it. -/
def wholeLine : List Char := lastLine m.before ++ firstLine (m.marked ++ m.after)

/-- The line that the marked text starts in, without the carriage returns at its end. -/
def line : List Char := m.wholeLine.rdropWhile (· == '\r')

/-- The number of characters in the line before the marked text. -/
def blanks : Nat := (lastLine m.before).length

/-- The number of marked characters; an empty text is marked at one place. -/
def carets : Nat := max 1 m.marked.length

/-- The carets go one place beyond the line at most. -/
def IsUnderLine : Prop := m.blanks + m.carets ≤ m.line.length + 1

instance : Decidable m.IsUnderLine := inferInstanceAs (Decidable (_ ≤ _))

/-- The text between two others. -/
def between (before marked after : String) : Mark (before ++ (marked ++ after)) where
  before := before.toList
  marked := marked.toList
  after := after.toList
  toList_eq := by rw [String.toList_append, String.toList_append]

/-- The slice of a mark is what is marked. -/
lemma slice?_span : slice? source.toList m.span.start m.span.stop = some m.marked := by
  rw [m.toList_eq]
  exact slice?_byteLength _ _ _

end Mark

/-- A span that lies in a source marks a text in it. -/
lemma exists_mark {source : String} {s : Span} (h : s.LiesIn source) :
    ∃ m : Mark source, m.span = s := by
  obtain ⟨before, after, hstart, hbefore⟩ := isValid_iff_exists_append.mp h.isValid_start
  obtain ⟨before', after', hstop, hbefore'⟩ := isValid_iff_exists_append.mp h.isValid_stop
  have hle : byteLength before ≤ byteLength before' := by
    rw [hbefore, hbefore']
    exact h.ordered
  obtain ⟨marked, rfl⟩ := exists_append_of_byteLength_le (hstart.symm.trans hstop) hle
  refine ⟨⟨before, marked, after', by rw [hstop, List.append_assoc]⟩, ?_⟩
  rw [byteLength_append] at hbefore'
  rw [Mark.span, hbefore', hbefore]

namespace Lines

/-- The first line of what follows ends before the first start. -/
lemma head?_startsAfter {offset : Nat} {cs : List Char}
    (hfit : offset + byteLength cs ≤ Span.maxOffset) (h : '\n' ∈ cs) :
    (startsAfter offset cs).head? = some (offset + byteLength (firstLine cs ++ ['\n'])) := by
  obtain ⟨line, more, rfl, hline⟩ := List.eq_append_cons_of_mem h
  have hnone : startsAfter offset line = [] := by
    rw [← List.length_eq_zero_iff, length_startsAfter, List.count_eq_zero_of_not_mem hline]
  have hfirst : firstLine (line ++ '\n' :: more) = line := by
    rw [firstLine_append hline]
    exact List.append_nil line
  have hnewline : byteLength ['\n'] = 1 := rfl
  rw [byteLength_append] at hfit
  simp only [byteLength] at hfit
  rw [startsAfter_append, hnone, hfirst, byteLength_append, hnewline]
  simp only [List.nil_append, startsAfter, beq_self_eq_true, if_true, List.head?_cons]
  have hsize : ('\n' : Char).utf8Size = 1 := rfl
  congr 1
  omega

section Mark

variable {source : String} (m : Mark source)

/-- The next line starts behind the line feed that ends the line of a marked text. -/
lemma start?_next_of_mem (hsize : byteLength source.toList < Span.maxOffset)
    (hmem : '\n' ∈ m.marked ++ m.after) :
    (ofText source).start? (wordAfter (m.before.count '\n' + 1)) =
      some (byteLength m.before + byteLength (firstLine (m.marked ++ m.after) ++ ['\n'])) := by
  have htotal : byteLength source.toList =
      byteLength m.before + byteLength (m.marked ++ m.after) := by
    rw [m.toList_eq, byteLength_append]
  have hcount : m.before.count '\n' ≤ byteLength m.before :=
    Nat.le_trans List.count_le_length (length_le_byteLength m.before)
  have hpos : 0 < byteLength (m.marked ++ m.after) :=
    Nat.lt_of_lt_of_le (List.length_pos_of_mem hmem) (length_le_byteLength _)
  obtain ⟨init, hstarts, hlength, -⟩ := exists_starts_of_append m.toList_eq hsize.le
  have hword : wordAfter (m.before.count '\n' + 1) = init.length + 1 + 1 := by
    rw [wordAfter, hlength, Nat.mod_eq_of_lt (by omega)]
  have hfit : byteLength m.before + byteLength (m.marked ++ m.after) ≤ Span.maxOffset := by omega
  rw [hword, start?, hstarts, List.getElem?_append_right (Nat.le_add_right _ 1),
    Nat.add_sub_cancel_left, List.getElem?_cons_succ, ← List.head?_eq_getElem?,
    head?_startsAfter hfit hmem]

/-- No line starts behind the last one; the word for its number can be zero. -/
lemma start?_next_of_notMem (hsize : byteLength source.toList < Span.maxOffset)
    (hmem : '\n' ∉ m.marked ++ m.after) :
    (ofText source).start? (wordAfter (m.before.count '\n' + 1)) = none := by
  obtain ⟨init, hstarts, hlength, -⟩ := exists_starts_of_append m.toList_eq hsize.le
  have hlater : startsAfter (byteLength m.before) (m.marked ++ m.after) = [] := by
    rw [← List.length_eq_zero_iff, length_startsAfter, List.count_eq_zero_of_not_mem hmem]
  rw [hlater] at hstarts
  unfold wordAfter
  rcases Nat.lt_or_ge (m.before.count '\n' + 1 + 1) (Span.maxOffset + 1) with hlt | hge
  · rw [Nat.mod_eq_of_lt hlt, start?, hstarts, List.getElem?_eq_none]
    simp only [List.length_append, List.length_singleton]
    omega
  · have hcount : m.before.count '\n' ≤ byteLength m.before :=
      Nat.le_trans List.count_le_length (length_le_byteLength m.before)
    have htotal : byteLength source.toList =
        byteLength m.before + byteLength (m.marked ++ m.after) := by
      rw [m.toList_eq, byteLength_append]
    have heq : m.before.count '\n' + 1 + 1 = Span.maxOffset + 1 := by omega
    rw [heq, Nat.mod_self, start?]

/-- Where the line of a marked text ends: behind its line feed, or at the end of the source. -/
lemma exists_lineEnd (hsize : byteLength source.toList < Span.maxOffset) :
    ∃ ending more, (ending = ['\n'] ∨ ending = []) ∧
      source.toList = closedLines m.before ++ (m.wholeLine ++ ending ++ more) ∧
      ((ofText source).start? (wordAfter (m.before.count '\n' + 1))).getD
        (byteLength source.toList) =
          byteLength (closedLines m.before) + byteLength (m.wholeLine ++ ending) := by
  have hbefore : byteLength m.before =
      byteLength (closedLines m.before) + byteLength (lastLine m.before) := by
    rw [← byteLength_append, closedLines_append_lastLine]
  have hsource : source.toList =
      closedLines m.before ++ (lastLine m.before ++ (m.marked ++ m.after)) := by
    rw [← List.append_assoc, closedLines_append_lastLine, m.toList_eq]
  by_cases hmem : '\n' ∈ m.marked ++ m.after
  · obtain ⟨line, more, hsplit, hline⟩ := List.eq_append_cons_of_mem hmem
    have hfirst : firstLine (m.marked ++ m.after) = line := by
      rw [hsplit, firstLine_append hline]
      exact List.append_nil line
    refine ⟨['\n'], more, .inl rfl, ?_, ?_⟩
    · rw [Mark.wholeLine, hfirst, hsource, hsplit]
      simp
    · rw [start?_next_of_mem m hsize hmem, Option.getD_some, hbefore, Mark.wholeLine]
      simp only [byteLength_append]
      omega
  · have hfirst := firstLine_of_notMem hmem
    refine ⟨[], [], .inr rfl, ?_, ?_⟩
    · rw [Mark.wholeLine, hfirst, hsource]
      simp
    · rw [start?_next_of_notMem m hsize hmem, Option.getD_none, hsource, Mark.wholeLine, hfirst,
        List.append_nil, byteLength_append]

/-- The text of the line that a marked text starts in. -/
lemma lineText?_mark (hsize : byteLength source.toList < Span.maxOffset) :
    (ofText source).lineText? source (m.before.count '\n' + 1) = some (String.ofList m.line) := by
  obtain ⟨ending, more, hending, hsplit, hstop⟩ := exists_lineEnd m hsize
  have hslice : slice? source.toList (byteLength (closedLines m.before))
      (byteLength (closedLines m.before) + byteLength (m.wholeLine ++ ending)) =
        some (m.wholeLine ++ ending) := by
    rw [hsplit]
    exact slice?_byteLength _ _ _
  have hnewline : '\n' ∉ m.wholeLine := by
    rw [Mark.wholeLine, List.mem_append, not_or]
    exact ⟨newline_notMem_lastLine _, newline_notMem_firstLine _⟩
  have htrim : (m.wholeLine ++ ending).rdropWhile (fun c => c == '\n' || c == '\r') = m.line := by
    have hline : m.wholeLine.rdropWhile (fun c => c == '\n' || c == '\r') = m.line :=
      rdropWhile_lineEnd hnewline
    rcases hending with rfl | rfl
    · rw [List.rdropWhile_concat_pos _ _ _ (by decide), hline]
    · rw [List.append_nil, hline]
  rw [lineText?]
  simp only [start?_of_append m.toList_eq hsize.le, Option.bind_some, hstop, hslice,
    Option.map_some]
  exact congrArg (fun cs => some (String.ofList cs)) htrim

/-- A marked text starts in the line behind the line feeds before it. -/
lemma position_mark (hsize : byteLength source.toList < Span.maxOffset) :
    (ofText source).position source m.span.start =
      ⟨m.before.count '\n' + 1, m.blanks + 1⟩ := by
  have hle : byteLength m.before ≤ byteLength source.toList := by
    rw [m.toList_eq, byteLength_append]
    exact Nat.le_add_right _ _
  change (ofText source).position source (byteLength m.before) = _
  rw [position_of_min m.toList_eq hsize.le (fits_placeAfter (Nat.lt_of_le_of_lt hle hsize))
    (Nat.min_eq_left hle), placeAfter, count_bytes, Nat.add_comm 1, Nat.add_comm 1, Mark.blanks]

end Mark

end Lines

/-! ### Carets that stay under the line -/

/-- What ends with no line end stays when line ends are cut off behind it. -/
lemma prefix_rdropWhile_append {p : Char → Bool} {cs : List Char} (h : cs.rdropWhile p = cs)
    (ds : List Char) : cs <+: (cs ++ ds).rdropWhile p := by
  induction ds using List.reverseRecOn with
  | nil =>
    rw [List.append_nil, h]
  | append_singleton ds d ih =>
    rw [← List.append_assoc, List.rdropWhile_concat]
    split
    · exact ih
    · rw [List.append_assoc]
      exact List.prefix_append _ _

namespace Mark

variable {source : String} (m : Mark source)

/-- The line that is shown is the whole line without carriage returns at its end. -/
lemma line_prefix : m.line <+: m.wholeLine := List.rdropWhile_prefix _ _

/-- The characters before the marked text and all marked characters but the last are shown in the
line just if the carets stay under it. -/
lemma isUnderLine_iff : m.IsUnderLine ↔ lastLine m.before ++ m.marked.dropLast <+: m.line := by
  have hlength : m.IsUnderLine ↔
      (lastLine m.before ++ m.marked.dropLast).length ≤ m.line.length := by
    rw [IsUnderLine, blanks, carets, List.length_append, List.length_dropLast]
    omega
  rw [hlength]
  refine ⟨fun hle => ?_, List.IsPrefix.length_le⟩
  obtain ⟨last, hlast⟩ := List.dropLast_prefix m.marked
  have hwhole : m.wholeLine =
      lastLine m.before ++ firstLine (m.marked.dropLast ++ (last ++ m.after)) := by
    rw [wholeLine, ← List.append_assoc _ last, hlast]
  -- a line feed before the last marked character ends the line too early
  have hmem : '\n' ∉ m.marked.dropLast := by
    intro hmem
    obtain ⟨line, more, hsplit, hline⟩ := List.eq_append_cons_of_mem hmem
    have hshort := m.line_prefix.length_le
    have hfirst : firstLine (m.marked.dropLast ++ (last ++ m.after)) = line := by
      rw [hsplit, List.append_assoc, firstLine_append hline]
      exact List.append_nil line
    rw [hwhole, hfirst, List.length_append] at hshort
    rw [List.length_append, hsplit, List.length_append, List.length_cons] at hle
    omega
  refine List.prefix_of_prefix_length_le ?_ m.line_prefix hle
  rw [hwhole, firstLine_append hmem, ← List.append_assoc]
  exact List.prefix_append _ _

/-- Carets stay under the line if the marked text is not empty and holds no line end. -/
lemma isUnderLine_of_inline (hne : m.marked ≠ []) (h : ∀ c ∈ m.marked, c ≠ '\n' ∧ c ≠ '\r') :
    m.IsUnderLine := by
  have hnewline : '\n' ∉ m.marked := fun hmem => (h _ hmem).1 rfl
  have hshown : lastLine m.before ++ m.marked <+: m.line := by
    have hwhole : m.wholeLine = lastLine m.before ++ m.marked ++ firstLine m.after := by
      rw [wholeLine, firstLine_append hnewline, List.append_assoc]
    rw [line, hwhole]
    refine prefix_rdropWhile_append (List.rdropWhile_eq_self_iff.mpr fun hne' => ?_) _
    rw [List.getLast_append_of_ne_nil _ hne]
    simpa using (h _ (List.getLast_mem hne)).2
  refine m.isUnderLine_iff.mpr (List.IsPrefix.trans ?_ hshown)
  exact (List.prefix_append_right_inj _).mpr (List.dropLast_prefix _)

/-- In a source of one line all carets stay under it. -/
lemma isUnderLine_of_source (h : ∀ c ∈ source.toList, c ≠ '\n' ∧ c ≠ '\r') : m.IsUnderLine := by
  have hnewline : '\n' ∉ m.before ++ (m.marked ++ m.after) := by
    rw [← m.toList_eq]
    exact fun hmem => (h _ hmem).1 rfl
  rw [List.mem_append, not_or] at hnewline
  have hlast : lastLine m.before = m.before := lastLine_append hnewline.1 []
  have hline : m.line = source.toList := by
    rw [line, wholeLine, hlast, firstLine_of_notMem hnewline.2, ← m.toList_eq]
    exact List.rdropWhile_eq_self_iff.mpr fun hne => by
      simpa using (h _ (List.getLast_mem hne)).2
  rw [isUnderLine_iff, hlast, hline, m.toList_eq, ← List.append_assoc]
  have hmarked : m.before ++ m.marked.dropLast <+: m.before ++ m.marked :=
    (List.prefix_append_right_inj _).mpr (List.dropLast_prefix _)
  exact hmarked.trans (List.prefix_append _ _)

end Mark

end Text

namespace Diagnostic

open Text

variable {source : String} (m : Mark source)

/-- The carets that are drawn are those of the mark. -/
lemma caretCount_mark : caretCount source m.span = m.carets := by
  rw [caretCount, m.slice?_span]
  rfl

/-- What is printed for a diagnostic with a message at the marked text. -/
def report (d : Diagnostic) (message path : String) : String :=
  let number := toString (m.before.count '\n' + 1)
  let gutter := run number.length ' '
  "error[" ++ d.code.text ++ "]: " ++ d.message ++ "\n" ++
    (gutter ++ "--> " ++ path ++ ":" ++ number ++ ":" ++ toString (m.blanks + 1) ++ "\n" ++
      (gutter ++ " |\n" ++ number ++ " | " ++ String.ofList m.line ++ "\n" ++
        gutter ++ " | " ++ run m.blanks ' ' ++ run m.carets '^' ++
          (if message.isEmpty then "\n" else " " ++ message ++ "\n"))) ++
    String.join (d.notes.map ("  = note: " ++ · ++ "\n"))

/-- A diagnostic whose first label is a mark is rendered as the report of the mark. -/
lemma render_eq_report (hsize : source.utf8ByteSize < Span.maxOffset) {d : Diagnostic}
    {message : String} {labels : List Label} (hlabels : d.labels = ⟨m.span, message⟩ :: labels)
    (path : String) : d.render path source = report m d message path := by
  rw [← byteLength_toList] at hsize
  rw [render, hlabels]
  simp only [location, Lines.position_mark m hsize, Lines.lineText?_mark m hsize, excerpt,
    caretCount_mark, Nat.add_sub_cancel]
  rfl

end Diagnostic

end StyleSheet

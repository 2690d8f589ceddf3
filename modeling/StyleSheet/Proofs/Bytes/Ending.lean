import StyleSheet.Proofs.Bytes.Scanner
import StyleSheet.Proofs.Grammar.Streaming

/-!
# The end of the input

Whether a text is at its end is decided twice.  The question for the end skips trivia and looks
whether anything is left.  The next token is the end of the input if nothing is left and the trivia
before does not join two selectors.  The two agree at any time, in the scanner of characters and in
the one of bytes, which also keeps in mind that it has met the end and reads zeros behind the text.

What is proved for one call holds behind any calls (`Machine.predictsEnd_of_step`).
-/

namespace StyleSheet

namespace Token

namespace Machine

variable {σ : Type} {m : Machine σ} {start s s' : σ} {t : Token}

/-- The question for the end foretells the next token, and the end stays the end. -/
structure PredictsEnd (m : Machine σ) (start : σ) : Prop where
  /-- Questions between the tokens change nothing. -/
  asking : ∀ calls, m.after start calls = m.after start (calls.filter (· == .next))
  predicts : ∀ calls s, m.after start calls = some (.ok s) →
    (m.isAtEnd s = some true ↔ ∃ t s', m.next s = some (.ok (t, s')) ∧ t.kind = .eof)
  /-- Behind the end of the input calls succeed and give it again. -/
  stays : ∀ calls s t s', m.after start calls = some (.ok s) → m.next s = some (.ok (t, s')) →
    t.kind = .eof → ∀ later, m.after s' later = some (.ok s') ∧ m.next s' = some (.ok (t, s'))

/-- What a token preserves calls preserve. -/
lemma after_invariant {inv : σ → Prop}
    (hstep : ∀ s t s', inv s → m.next s = some (.ok (t, s')) → inv s') (hs : inv s)
    {calls : List Call} (h : m.after s calls = some (.ok s')) : inv s' := by
  induction calls generalizing s with
  | nil =>
    cases h
    exact hs
  | cons call calls ih =>
    cases call with
    | isAtEnd =>
      obtain ⟨answer, -, h⟩ := Option.bind_eq_some_iff.mp h
      exact ih hs h
    | next =>
      obtain ⟨e | ⟨t, next⟩, hanswer, h⟩ := Option.bind_eq_some_iff.mp h
      · cases h
      · exact ih (hstep s t next hs hanswer) h

/-- It is enough to look at one call from each state. -/
lemma predictsEnd_of_step (inv : σ → Prop) (hstart : inv start)
    (hstep : ∀ s t s', inv s → m.next s = some (.ok (t, s')) → inv s')
    (hasks : ∀ s, inv s → (m.isAtEnd s).isSome = true)
    (hpredicts : ∀ s, inv s →
      (m.isAtEnd s = some true ↔ ∃ t s', m.next s = some (.ok (t, s')) ∧ t.kind = .eof))
    (hstays : ∀ s t s', inv s → m.next s = some (.ok (t, s')) → t.kind = .eof →
      m.next s' = some (.ok (t, s'))) : m.PredictsEnd start where
  asking calls := by
    induction calls generalizing start with
    | nil => rfl
    | cons call calls ih =>
      cases call with
      | isAtEnd =>
        obtain ⟨answer, hanswer⟩ := Option.isSome_iff_exists.mp (hasks start hstart)
        rw [List.filter_cons_of_neg (by decide), after, hanswer, Option.bind_some, ih hstart]
      | next =>
        rw [List.filter_cons_of_pos (by decide), after, after]
        rcases hnext : m.next start with _ | _ | ⟨t, s'⟩
        · rfl
        · rfl
        · exact ih (hstep start t s' hstart hnext)
  predicts calls s h := hpredicts s (after_invariant hstep hstart h)
  stays calls s t s' h hnext hk := by
    have hinv := after_invariant hstep hstart h
    have hagain := hstays s t s' hinv hnext hk
    -- neither call leaves the state behind the end of the input, so later calls change nothing
    obtain ⟨answer, hanswer⟩ := Option.isSome_iff_exists.mp (hasks s' (hstep s t s' hinv hnext))
    intro later
    refine ⟨?_, hagain⟩
    induction later with
    | nil => rfl
    | cons call later ih =>
      cases call with
      | isAtEnd => rw [after, hanswer, Option.bind_some, ih]
      | next =>
        rw [after, hagain, Option.bind_some]
        exact ih

end Machine

/-! ### One call -/

/-- Trivia at the end joins no selectors, so only trivia is left just if the next token is the
end. -/
lemma Scanner.isAtEnd_iff (table : Keyword.Table) (s : Scanner) :
    s.isAtEnd = true ↔ ∃ t s', s.next table = .ok (t, s') ∧ t.kind = .eof := by
  constructor
  · intro h
    have hnil : s.rest.drop (triviaSize none s.rest) = [] := List.isEmpty_iff.mp h
    have hjoins : s.joinsSelectors (triviaSize none s.rest) = false := by
      simp [joinsSelectors, hnil, headIs]
    have hcut : s.cut table = .ok ⟨.eof, triviaSize none s.rest, 0⟩ := by
      simp [cut, hjoins, hnil]
    have hnext : s.next table = .ok (s.take ⟨.eof, triviaSize none s.rest, 0⟩) := by
      rw [next, hcut]
      rfl
    exact ⟨_, _, hnext, rfl⟩
  · rintro ⟨t, s', hnext, hk⟩
    obtain ⟨c, hcut, htake⟩ := next_eq_ok hnext
    obtain rfl : (s.take c).1 = t := congrArg Prod.fst htake
    obtain ⟨rfl, hnil⟩ := eof_of_cut hcut hk
    exact List.isEmpty_iff.mpr hnil

namespace ByteScanner

variable {table : Keyword.Table} {source : String} {s s' : Scanner} {b b' : ByteScanner} {t : Token}

/-- A scanner of bytes is told apart from others that stand at its place only by whether it has met
the end. -/
lemma Mirrors.unique (h : Mirrors source s b) (h' : Mirrors source s b')
    (hdone : b.isDone = b'.isDone) : b = b' := by
  obtain ⟨done, hsource, hcursor, -, hstop⟩ := h.exists_done
  obtain ⟨done', hsource', hcursor', -, hstop'⟩ := h'.exists_done
  obtain rfl : done = done' := List.append_cancel_right (hsource.symm.trans hsource')
  obtain ⟨c, previous, stop, isDone⟩ := b
  obtain ⟨c', previous', stop', isDone'⟩ := b'
  have hprevious : previous = previous' := h.previous_eq.trans h'.previous_eq.symm
  simp only at hcursor hcursor' hstop hstop' hdone
  rw [hcursor, hcursor', hstop, hstop', hdone, hprevious]

/-- A scanner is done once it has yielded the end of the input. -/
lemma isDone_of_next? (h : b.next? table = some (.ok (t, b'))) :
    b'.isDone = (b.isDone || t.kind == .eof) := by
  obtain ⟨e | ⟨u, c⟩, -, hanswer⟩ := Option.map_eq_some_iff.mp h
  · cases hanswer
  · cases hanswer
    rfl

/-- A step of a scanner of bytes is one of the scanner of characters. -/
lemma Mirrors.next_of_next? (h : Mirrors source s b) (hnext : b.next? table = some (.ok (t, b'))) :
    ∃ s', s.next table = .ok (t, s') ∧ Mirrors source s' b' := by
  rcases h.next table with ⟨u, s', c, hs, hc, hmirrors⟩ | ⟨e, -, hb⟩
  · cases hnext.symm.trans hc
    exact ⟨s', hs, hmirrors⟩
  · cases hnext.symm.trans hb

/-- A step of the scanner of characters is one of a scanner of bytes. -/
lemma Mirrors.next?_of_next (h : Mirrors source s b) (hnext : s.next table = .ok (t, s')) :
    ∃ b', b.next? table = some (.ok (t, b')) ∧ Mirrors source s' b' := by
  rcases h.next table with ⟨u, s'', b', hs, hb, hmirrors⟩ | ⟨e, hs, -⟩
  · cases hnext.symm.trans hs
    exact ⟨b', hb, hmirrors⟩
  · cases hnext.symm.trans hs

end ByteScanner

/-- In the scanner of characters and in the one of bytes the question for the end is answered with
yes just where the next token is the end of the input, whichever calls were made before, and from
then on every token is that same one. -/
theorem end_foretold (table : Keyword.Table) (source : String) :
    (Scanner.machine table).PredictsEnd (.ofText source) ∧
      (ByteScanner.machine table).PredictsEnd (.ofText source) := by
  constructor
  · refine Machine.predictsEnd_of_step (fun _ => True) trivial (fun _ _ _ _ _ => trivial)
      (fun _ _ => rfl) (fun s _ => ?_) fun s t s' _ hnext hk => ?_
    · simp only [Scanner.machine, Option.some.injEq]
      exact s.isAtEnd_iff table
    · have hs : s.next table = .ok (t, s') := Option.some.inj hnext
      exact congrArg some (Scanner.next_of_next_eof hs hk).2
  · refine Machine.predictsEnd_of_step (fun b => ∃ s, ByteScanner.Mirrors source s b)
      ⟨_, ByteScanner.mirrors_ofText source⟩ ?_ ?_ ?_ ?_
    · rintro b t b' ⟨s, hb⟩ hnext
      obtain ⟨s', -, hb'⟩ := hb.next_of_next? hnext
      exact ⟨s', hb'⟩
    · rintro b ⟨s, hb⟩
      simp only [ByteScanner.machine, hb.isAtEnd?_eq, Option.isSome_some]
    · rintro b ⟨s, hb⟩
      simp only [ByteScanner.machine, hb.isAtEnd?_eq, Option.some.injEq, s.isAtEnd_iff table]
      constructor
      · rintro ⟨t, s', hnext, hk⟩
        obtain ⟨b', hb', -⟩ := hb.next?_of_next hnext
        exact ⟨t, b', hb', hk⟩
      · rintro ⟨t, b', hnext, hk⟩
        obtain ⟨s', hs', -⟩ := hb.next_of_next? hnext
        exact ⟨t, s', hs', hk⟩
    · rintro b t b' ⟨s, hb⟩ hnext hk
      obtain ⟨s', hs', hb'⟩ := hb.next_of_next? hnext
      obtain ⟨b'', hb'', hmirrors⟩ := hb'.next?_of_next (Scanner.next_of_next_eof hs' hk).2
      -- Both have met the end.
      have hdone : b''.isDone = b'.isDone := by
        rw [ByteScanner.isDone_of_next? hb'', ByteScanner.isDone_of_next? hnext, hk]
        simp
      rwa [hmirrors.unique hb' hdone] at hb''

/-- Behind a selector a comment stays open, with a zero in it. -/
def openText : String := ".a /*\x00"

/-- The end is foretold behind a comment that is not closed, and it comes again and again. -/
theorem end_foretold_openText : ∃ b t b',
    (ByteScanner.machine .builtin).after (.ofText openText) [.isAtEnd, .next] = some (.ok b) ∧
      b.isAtEnd? = some true ∧ b.next? .builtin = some (.ok (t, b')) ∧ t.kind = .eof ∧
      b'.next? .builtin = some (.ok (t, b')) := by
  have hscan : (Scanner.machine .builtin).after (.ofText openText) [.isAtEnd, .next] =
      some (.ok ⟨2, some .classSelector, [' ', '/', '*', '\x00']⟩) := by rfl
  rcases (ByteScanner.mirrors_ofText openText).after .builtin [.isAtEnd, .next] with
    ⟨s, b, hs, hb, hmirrors⟩ | ⟨e, hs, -⟩
  · obtain rfl := Except.ok.inj (Option.some.inj (hs.symm.trans hscan))
    have hend : b.isAtEnd? = some true := hmirrors.isAtEnd?_eq
    have hpredicts := (end_foretold .builtin openText).2
    obtain ⟨t, b', hnext, hk⟩ := (hpredicts.predicts _ b hb).mp hend
    exact ⟨b, t, b', hb, hend, hnext, hk, (hpredicts.stays _ b t b' hb hnext hk []).2⟩
  · cases hs.symm.trans hscan

end Token

end StyleSheet

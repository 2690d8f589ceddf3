import Mathlib.Data.List.Infix
import Mathlib.Data.Nat.SuccPred
import Mathlib.Logic.Function.Iterate
import Mathlib.Tactic.Lemma
import StyleSheet.Token.Trivia

/-!
# Runs of trivia

The grammar of trivia, said without a walk: a run is made of blanks, of line comments with the line
feed that ends them, and of block comments with the first `*/` that ends them.  At the end of a text
a comment can be open.

The walk of `triviaSize` passes over exactly such a run, and stops where none goes on
(`triviaSize_cases`).  Everything else that walks over comments state by state does so in the same
steps, so what happens inside of a comment is proved for any walk (`Comment.Walks`).
-/

namespace StyleSheet.Token

/-- Blanks and comments, each comment with its end. -/
inductive Trivia : List Char → Prop where
  | nil : Trivia []
  | blank {c : Char} {cs : List Char} (hc : isBlank c = true) (h : Trivia cs) : Trivia (c :: cs)
  | line {body cs : List Char} (hbody : '\n' ∉ body) (h : Trivia cs) :
    Trivia ('/' :: '/' :: (body ++ '\n' :: cs))
  /-- The body begins at the star that opens the comment, which may be the star that ends it. -/
  | block {body cs : List Char} (hopen : ∀ c ∈ body.head?, c = '*')
    (hbody : ¬ ['*', '/'] <:+: body ++ ['*']) (h : Trivia cs) :
    Trivia ('/' :: (body ++ '*' :: '/' :: cs))

/-- A comment that is open at the end of the text. -/
inductive OpenComment : List Char → Prop where
  | line {body : List Char} (hbody : '\n' ∉ body) : OpenComment ('/' :: '/' :: body)
  | block {body : List Char} (hbody : ¬ ['*', '/'] <:+: '*' :: body) :
    OpenComment ('/' :: '*' :: body)

/-- Whether a blank or a comment starts at the text. -/
def startsTrivia : List Char → Bool
  | [] => false
  | c :: rest => isBlank c || (Comment.opens c rest).isSome

/-- Blanks are trivia. -/
lemma trivia_of_isBlank {cs : List Char} (h : ∀ c ∈ cs, isBlank c = true) : Trivia cs := by
  induction cs with
  | nil => exact .nil
  | cons c cs ih =>
    obtain ⟨hc, hcs⟩ := List.forall_mem_cons.mp h
    exact .blank hc (ih hcs)

/-! ### Walks over a comment -/

namespace Comment

/-- A comment opens with a slash and a second mark that tells its kind. -/
lemma opens_eq_some {c : Char} {rest : List Char} {k : Comment} (h : opens c rest = some k) :
    c = '/' ∧ ((∃ body, rest = '/' :: body ∧ k = line) ∨
      ∃ body, rest = '*' :: body ∧ k = block) := by
  unfold opens at h
  split at h
  · rename_i hslash
    refine ⟨by simpa using hslash, ?_⟩
    split at h
    · rename_i hhead
      obtain ⟨body, rfl⟩ := List.head?_eq_some_iff.mp hhead
      exact .inl ⟨body, rfl, (Option.some.inj h).symm⟩
    · rename_i hhead
      obtain ⟨body, rfl⟩ := List.head?_eq_some_iff.mp hhead
      exact .inr ⟨body, rfl, (Option.some.inj h).symm⟩
    · cases h
  · cases h

/-- A walk that goes over a comment one character at a time. -/
def Walks {β : Type} (walk : Option Comment → List Char → β) (step : β → β) : Prop :=
  ∀ k c rest, walk (some k) (c :: rest) = step (walk (next c rest k) rest)

namespace Walks

variable {β : Type} {walk : Option Comment → List Char → β} {step : β → β}

/-- A line comment goes on over all that is no line feed. -/
lemma line_append (hwalk : Walks walk step) {body : List Char} (hbody : '\n' ∉ body)
    (rest : List Char) :
    walk (some line) (body ++ rest) = step^[body.length] (walk (some line) rest) := by
  induction body with
  | nil => rfl
  | cons c body ih =>
    have hc : c ≠ '\n' := fun h => hbody (h ▸ List.mem_cons_self)
    have hnext : next c (body ++ rest) line = some line := by simp [next, hc]
    rw [List.cons_append, hwalk, hnext, ih (fun h => hbody (List.mem_cons_of_mem c h)),
      List.length_cons, Function.iterate_succ_apply']

/-- A line comment ends with the line feed. -/
lemma line_end (hwalk : Walks walk step) {body : List Char} (hbody : '\n' ∉ body)
    (rest : List Char) :
    walk (some line) (body ++ '\n' :: rest) = step^[body.length + 1] (walk none rest) := by
  have hnext : next '\n' rest line = none := by simp [next]
  rw [hwalk.line_append hbody, hwalk, hnext, ← Function.iterate_succ_apply]

/-- A block comment goes on over all that holds no `*/`, where a slash behind it counts. -/
lemma block_append (hwalk : Walks walk step) {body rest : List Char}
    (hbody : ¬ ['*', '/'] <:+: body ++ rest.take 1) :
    walk (some block) (body ++ rest) = step^[body.length] (walk (some block) rest) := by
  induction body with
  | nil => rfl
  | cons c body ih =>
    rw [List.cons_append, List.infix_cons_iff, not_or] at hbody
    have hhead : (body ++ rest).head? = (body ++ rest.take 1).head? := by
      simp [List.head?_append, List.head?_take]
    have hnext : next c (body ++ rest) block = some block := by
      have hnot : ¬ (c = '*' ∧ (body ++ rest).head? = some '/') := by
        rintro ⟨rfl, hslash⟩
        obtain ⟨after, hafter⟩ := List.head?_eq_some_iff.mp (hhead ▸ hslash)
        exact hbody.1 ⟨after, by rw [hafter]; rfl⟩
      simp only [next, Bool.and_eq_true, beq_iff_eq, hnot, if_false]
    rw [List.cons_append, hwalk, hnext, ih hbody.2, List.length_cons,
      Function.iterate_succ_apply']

/-- A block comment ends with the first `*/`. -/
lemma block_end (hwalk : Walks walk step) {body : List Char}
    (hbody : ¬ ['*', '/'] <:+: body ++ ['*']) (rest : List Char) :
    walk (some block) (body ++ '*' :: '/' :: rest) = step^[body.length + 2] (walk none rest) := by
  have hstar : next '*' ('/' :: rest) block = some closing := by simp [next]
  have hslash : next '/' rest closing = none := rfl
  rw [hwalk.block_append hbody, hwalk, hstar, hwalk, hslash, Function.iterate_add_apply]
  rfl

end Walks

end Comment

/-! ### The size of a run -/

/-- Counting trivia walks through a comment like any other walk. -/
lemma walks_triviaSize : Comment.Walks triviaSize Nat.succ := fun _ _ _ => rfl

/-- Where no trivia start there are none. -/
lemma triviaSize_eq_zero {cs : List Char} (h : startsTrivia cs = false) :
    triviaSize none cs = 0 := by
  cases cs with
  | nil => rfl
  | cons c rest =>
    obtain ⟨hblank, hopens⟩ := Bool.or_eq_false_iff.mp h
    have hnone : Comment.opens c rest = none := by simpa using hopens
    simp [triviaSize, hblank, hnone]

/-- The marks of a comment of one line count as two. -/
lemma triviaSize_line (body : List Char) :
    triviaSize none ('/' :: '/' :: body) = triviaSize (some .line) body + 2 := rfl

/-- The slash of a comment in marks counts as one, and its star belongs to the comment. -/
lemma triviaSize_block {body : List Char} (h : body.head? = some '*') :
    triviaSize none ('/' :: body) = triviaSize (some .block) body + 1 := by
  obtain ⟨rest, rfl⟩ := List.head?_eq_some_iff.mp h
  rfl

/-- The body of a block comment starts with a star, also if it is empty before the end. -/
lemma head?_block {body : List Char} (hopen : ∀ c ∈ body.head?, c = '*') (cs : List Char) :
    (body ++ '*' :: cs).head? = some '*' := by
  cases body with
  | nil => rfl
  | cons c body => simpa using hopen c rfl

/-- A run of trivia is passed over, whatever follows. -/
lemma Trivia.triviaSize_append {gap : List Char} (h : Trivia gap) (rest : List Char) :
    triviaSize none (gap ++ rest) = triviaSize none rest + gap.length := by
  induction h with
  | nil => rfl
  | blank hc _ ih =>
    rw [List.cons_append, triviaSize, if_pos hc, ih, List.length_cons]
    rfl
  | @line body cs hbody _ ih =>
    have hwalk := walks_triviaSize.line_end hbody (cs ++ rest)
    rw [Nat.succ_iterate, ih] at hwalk
    simp only [List.cons_append, List.append_assoc, triviaSize_line, hwalk, List.length_cons,
      List.length_append]
    omega
  | @block body cs hopen hbody _ ih =>
    have hwalk := walks_triviaSize.block_end hbody (cs ++ rest)
    rw [Nat.succ_iterate, ih] at hwalk
    simp only [List.cons_append, List.append_assoc, triviaSize_block (head?_block hopen _), hwalk,
      List.length_cons, List.length_append]
    omega

/-- A comment that is open at the end takes all of the text. -/
lemma OpenComment.triviaSize_eq {cs : List Char} (h : OpenComment cs) :
    triviaSize none cs = cs.length := by
  have hnil : ∀ k, triviaSize (some k) [] = 0 := fun _ => rfl
  cases h with
  | @line body hbody =>
    have hwalk := walks_triviaSize.line_append hbody []
    rw [List.append_nil, Nat.succ_iterate, hnil, Nat.zero_add] at hwalk
    rw [triviaSize_line, hwalk]
    rfl
  | @block body hbody =>
    have hwalk : triviaSize (some .block) ('*' :: body ++ []) = _ :=
      walks_triviaSize.block_append (by simpa using hbody)
    rw [List.append_nil, Nat.succ_iterate, hnil, Nat.zero_add] at hwalk
    rw [triviaSize_block rfl, hwalk]
    rfl

/-! ### Every text starts with a run -/

/-- The first `*/` of a text, if it has one. -/
lemma exists_closer (cs : List Char) : ¬ ['*', '/'] <:+: cs ∨
    ∃ body rest, cs = body ++ '*' :: '/' :: rest ∧ ¬ ['*', '/'] <:+: body ++ ['*'] := by
  induction cs with
  | nil => exact .inl (by simp)
  | cons c cs ih =>
    by_cases hhere : ['*', '/'] <+: c :: cs
    · obtain ⟨rest, hrest⟩ := hhere
      exact .inr ⟨[], rest, hrest.symm, fun h => absurd h.length_le (by simp)⟩
    · rcases ih with hnone | ⟨body, rest, rfl, hbody⟩
      · exact .inl (by simp [List.infix_cons_iff, hhere, hnone])
      · refine .inr ⟨c :: body, rest, rfl, fun h => ?_⟩
        rw [List.cons_append, List.infix_cons_iff] at h
        refine h.elim (fun hstart => hhere ?_) hbody
        -- The star after the body is still in the text.
        have hlonger : c :: (body ++ ['*']) <+: c :: (body ++ '*' :: '/' :: rest) :=
          ⟨'/' :: rest, by simp⟩
        exact hstart.trans hlonger

/-- A text is a run of trivia, and then something that is none or a comment that stays open. -/
lemma exists_trivia (cs : List Char) : ∃ run rest, cs = run ++ rest ∧ Trivia run ∧
    (startsTrivia rest = false ∨ OpenComment rest) := by
  by_cases hstart : startsTrivia cs = false
  · exact ⟨[], cs, rfl, .nil, .inl hstart⟩
  · match cs with
    | [] => exact absurd rfl hstart
    | c :: tail =>
      by_cases hc : isBlank c = true
      · obtain ⟨run, rest, rfl, hrun, hrest⟩ := exists_trivia tail
        exact ⟨c :: run, rest, rfl, hrun.blank hc, hrest⟩
      · obtain ⟨k, hk⟩ : ∃ k, Comment.opens c tail = some k := by
          simpa [startsTrivia, hc, Option.ne_none_iff_exists'] using hstart
        obtain ⟨rfl, ⟨body, rfl, -⟩ | ⟨body, htail, -⟩⟩ := Comment.opens_eq_some hk
        · -- a comment of one line goes on to the next line feed, or it stays open to the end
          by_cases hline : '\n' ∈ body
          · obtain ⟨text, after, rfl, htext⟩ := List.eq_append_cons_of_mem hline
            obtain ⟨run, rest, rfl, hrun, hrest⟩ := exists_trivia after
            exact ⟨'/' :: '/' :: (text ++ '\n' :: run), rest, by simp, hrun.line htext, hrest⟩
          · exact ⟨[], _, rfl, .nil, .inr (.line hline)⟩
        · rcases exists_closer tail with hnone | ⟨text, after, htext, hfirst⟩
          · rw [htail] at hnone ⊢
            exact ⟨[], _, rfl, .nil, .inr (.block hnone)⟩
          · have hshorter : after.length < tail.length := by
              simp only [htext, List.length_cons, List.length_append]
              omega
            obtain ⟨run, rest, rfl, hrun, hrest⟩ := exists_trivia after
            have hopen : ∀ c ∈ text.head?, c = '*' := by
              intro c hc
              obtain ⟨more, rfl⟩ := List.head?_eq_some_iff.mp hc
              exact (List.cons.inj (htail.symm.trans htext)).1.symm
            refine ⟨'/' :: (text ++ '*' :: '/' :: run), rest, ?_, hrun.block hopen hfirst, hrest⟩
            simp [htext]
termination_by cs.length

/-- What the walk passes over is a run of trivia before something that is none, or all of the text
with a comment that stays open. -/
lemma triviaSize_cases (cs : List Char) :
    (Trivia (cs.take (triviaSize none cs)) ∧
        startsTrivia (cs.drop (triviaSize none cs)) = false) ∨
      triviaSize none cs = cs.length ∧
        ∃ run tail, cs = run ++ tail ∧ Trivia run ∧ OpenComment tail := by
  obtain ⟨run, rest, rfl, hrun, hrest | hopen⟩ := exists_trivia cs
  · have hsize : triviaSize none (run ++ rest) = run.length := by
      rw [hrun.triviaSize_append, triviaSize_eq_zero hrest, Nat.zero_add]
    refine .inl ⟨?_, ?_⟩
    · rwa [hsize, List.take_left]
    · rwa [hsize, List.drop_left]
  · refine .inr ⟨?_, run, rest, rfl, hrun, hopen⟩
    rw [hrun.triviaSize_append, hopen.triviaSize_eq, List.length_append, Nat.add_comm]

end StyleSheet.Token

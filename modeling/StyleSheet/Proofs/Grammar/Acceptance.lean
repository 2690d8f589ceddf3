import StyleSheet.Proofs.Grammar.Completeness
import StyleSheet.Proofs.Grammar.Simulation

/-!
# What is a sheet

A source text whose scanning succeeds is read exactly if the kinds of its tokens are a sheet of the
grammar (`exists_ofText_eq_ok_iff`).  Soundness and completeness of the readings are put together
with what scanning yields.
-/

namespace StyleSheet.Sheet

open Form Reading Cursor

/-- The window on the first tokens of a text whose scanning succeeds. -/
lemma ofTokens_eq_on {ts : Token.Tokenization} {span : Span} (h : ts.ending = .ok span) :
    Cursor.ofTokens ts = .ok (on ⟨0, 0⟩ span ts.tokens) := by
  obtain ⟨tokens, ending⟩ := ts
  obtain rfl : ending = .ok span := h
  rcases tokens with _ | ⟨a, _ | ⟨b, later⟩⟩
  all_goals rfl

/-- Tokens of a text whose scanning succeeds are read from the window on them. -/
lemma ofTokens_eq_ofWindow {ts : Token.Tokenization} {span : Span} (h : ts.ending = .ok span) :
    ofTokens ts = ofWindow (on ⟨0, 0⟩ span ts.tokens) := by
  rw [ofTokens, ofTokens_eq_on h]

/-- Tokens are read as a sheet exactly if their kinds are one. -/
lemma exists_ofWindow_eq_ok_iff {before stop : Span} {ts : List Token} (hr : Readable ts) :
    (∃ sheet, ofWindow (on before stop ts) = .ok sheet) ↔ IsSheet (kinds ts) := by
  constructor
  · rintro ⟨sheet, hsheet⟩
    obtain ⟨c, hread⟩ := ofWindow_eq_ok.mp hsheet
    exact (isSheet_of_statementsUpTo hr hread).1
  · intro hform
    have haccepts : Accepts (statementsUpTo (ts.length + 1) none) ts [] :=
      accepts_statementsUpTo _ none (Nat.lt_succ_self _) ⟨rfl, hform⟩
    obtain ⟨sheet, before', us, hread, -⟩ := haccepts before stop hr
    rw [← size_on hr] at hread
    exact ⟨sheet, ofWindow_eq_ok.mpr ⟨_, hread⟩⟩

/-- A source text whose scanning succeeds is read exactly if the kinds of its tokens are a sheet. -/
theorem exists_ofText_eq_ok_iff (table : Keyword.Table) (source : String) (span : Span)
    (h : (Token.tokenize table source).ending = .ok span) :
    (∃ sheet, ofText table source = .ok sheet) ↔
      IsSheet (kinds (Token.tokenize table source).tokens) := by
  rw [ofText_eq_ofTokens, ofTokens_eq_ofWindow h]
  exact exists_ofWindow_eq_ok_iff (Token.readable_tokenize table source)

/-- A mixin in which a comma follows the last parameter, a minus sign joins two values of a
declaration and starts another, and the block ends without a semicolon. -/
def mixinText : String := "@mixin m($a,)\x7bx:1 -$a (-2) !important\x7d"

/-- The text is a sheet, and not one any more if a brace is opened after it. -/
theorem exists_ofText_eq_ok_iff_mixinText :
    IsSheet (kinds (Token.tokenize .builtin mixinText).tokens) ∧
      ¬ IsSheet (kinds (Token.tokenize .builtin (mixinText ++ "A\x7b")).tokens) := by
  have hscan : (Token.tokenize .builtin mixinText).ending = .ok ⟨38, 38⟩ := by decide +kernel
  have hscan' : (Token.tokenize .builtin (mixinText ++ "A\x7b")).ending = .ok ⟨40, 40⟩ := by
    decide +kernel
  have hok : (ofText .builtin mixinText).isOk = true := by decide +kernel
  have hfails : (ofText .builtin (mixinText ++ "A\x7b")).isOk = false := by decide +kernel
  constructor
  · refine (exists_ofText_eq_ok_iff _ _ _ hscan).mp ?_
    cases hread : ofText .builtin mixinText with
    | ok sheet => exact ⟨sheet, rfl⟩
    | error e =>
      rw [hread] at hok
      cases hok
  · intro hsheet
    obtain ⟨sheet, hread⟩ := (exists_ofText_eq_ok_iff _ _ _ hscan').mpr hsheet
    rw [hread] at hfails
    cases hfails

end StyleSheet.Sheet

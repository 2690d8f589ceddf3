/-!
# Splitting a list

The parts of a list between the elements that separate them.
-/

namespace StyleSheet

/-- The parts between separators; there is one part more than separators. -/
def splitWhere {α : Type} (isSeparator : α → Bool) : List α → List (List α)
  | [] => [[]]
  | a :: rest =>
    if isSeparator a then [] :: splitWhere isSeparator rest
    else
      match splitWhere isSeparator rest with
      | part :: more => (a :: part) :: more
      | [] => [[a]]

/-- There is always a first part. -/
theorem splitWhere_ne_nil {α : Type} (isSeparator : α → Bool) (xs : List α) :
    splitWhere isSeparator xs ≠ [] := by
  induction xs with
  | nil => simp [splitWhere]
  | cons a rest ih =>
    unfold splitWhere
    split
    · simp
    · split <;> simp

end StyleSheet

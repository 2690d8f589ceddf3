/-!
# Output

A ruleset becomes one block of text with its declarations.  The blocks of the rulesets nested in
it follow it, so the output is flat.
-/

namespace StyleSheet

/-- What statements put out under one ruleset. -/
structure Output where
  /-- Declarations of the ruleset they stand in, such as `color:red;`. -/
  declarations : List String
  /-- Finished blocks. -/
  blocks : List String
  deriving DecidableEq

namespace Output

def empty : Output := ⟨[], []⟩

def append (x y : Output) : Output :=
  ⟨x.declarations ++ y.declarations, x.blocks ++ y.blocks⟩

instance : Append Output := ⟨append⟩

/-- Nothing is added by an empty output. -/
theorem append_empty (x : Output) : x ++ empty = x := by
  show append x empty = x
  simp [append, empty]

def declaration (text : String) : Output := ⟨[text], []⟩

/-- The block of a ruleset. -/
def block (selectors declarations : List String) : String :=
  ", ".intercalate selectors ++ "\x7b" ++ String.join declarations ++ "\x7d"

/-- Closes a ruleset: its block, and then the blocks of its body. -/
def close (body : Output) (selectors : List String) : Output :=
  ⟨[], block selectors body.declarations :: body.blocks⟩

/-- A declaration with its values. -/
def declarationText (property : String) (values : List String) (important : Bool) : String :=
  property ++ ":" ++ " ".intercalate values ++ (if important then " !important" else "") ++ ";"

end Output

end StyleSheet

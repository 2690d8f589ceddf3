import StyleSheet.Split
import StyleSheet.Token

/-!
# Selectors of nested rulesets

The header of a ruleset is a list of tokens, in groups between commas.  Under an enclosing
ruleset each group is combined with each selector of that ruleset: an `&` stands for the enclosing
selector, and a group without `&` selects descendants of it.
-/

namespace StyleSheet.Selector

def isComma (t : Token) : Bool := t.kind = .comma

def isParentReference (t : Token) : Bool := t.kind = .parentReference

/-- The parts of a header between its commas, those without a token left out. -/
def groups (header : List Token) : List (List Token) :=
  (splitWhere isComma header).filter (fun group => !group.isEmpty)

/-- One token of a selector, with the text that `&` stands for. -/
def tokenText (parent : String) (t : Token) : String :=
  match t.kind with
  | .descendantCombinator => " "
  | .childCombinator => " > "
  | .parentReference => parent
  | _ => t.text

/-- A group as text. -/
def render (parent : String) (group : List Token) : String :=
  String.join (group.map (tokenText parent))

/-- A group below one enclosing selector. -/
def under (parent : String) (group : List Token) : String :=
  if group.any isParentReference then render parent group
  else parent ++ " " ++ render parent group

/-- The selectors of a ruleset, given those of the enclosing one if there is one.  The first
enclosing selector comes first, with all groups.  Outside a ruleset `&` stands for nothing: the
first one is reported. -/
def compose (parents : Option (List String)) (header : List Token) : Except Token (List String) :=
  match parents with
  | some parents => .ok (parents.flatMap fun parent => (groups header).map (under parent))
  | none =>
    match header.find? isParentReference with
    | some reference => .error reference
    | none => .ok ((groups header).map (render ""))

end StyleSheet.Selector

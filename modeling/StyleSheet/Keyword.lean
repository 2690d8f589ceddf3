/-!
# Keywords

A keyword is written with a mark, `@` for a directive and `!` for a flag.  A table says
which words are keywords; it starts with the built-in spellings and can be given further
ones.
-/

namespace StyleSheet

/-- The directives and flags of the language. -/
inductive Keyword where
  | atImport
  | atExtend
  | atMixin
  | atInclude
  | atIf
  | atElse
  | bangDefault
  | bangGlobal
  | bangImportant
  deriving DecidableEq

namespace Keyword

/-- Every keyword, in the order of the built-in table. -/
def all : List Keyword :=
  [atImport, atExtend, atMixin, atInclude, atIf, atElse, bangDefault, bangGlobal, bangImportant]

/-- The built-in spelling. -/
def spelling : Keyword → String
  | atImport => "@import"
  | atExtend => "@extend"
  | atMixin => "@mixin"
  | atInclude => "@include"
  | atIf => "@if"
  | atElse => "@else"
  | bangDefault => "!default"
  | bangGlobal => "!global"
  | bangImportant => "!important"

/-- The name under which listings show tokens of this keyword. -/
def name : Keyword → String
  | atImport => "Import"
  | atExtend => "Extend"
  | atMixin => "Mixin"
  | atInclude => "Include"
  | atIf => "If"
  | atElse => "Else"
  | bangDefault => "Default"
  | bangGlobal => "Global"
  | bangImportant => "Important"

/-- The keyword that a word spells without any alias. -/
def ofSpelling? (word : String) : Option Keyword :=
  all.find? (fun k => k.spelling == word)

/-- The words that are read as keywords beside the built-in spellings, latest first. -/
structure Table where
  aliases : List (String × Keyword)

namespace Table

/-- The table that knows only the built-in spellings. -/
def builtin : Table := ⟨[]⟩

/-- Whether a word starts with one of the two marks. -/
def isMarked (word : String) : Bool :=
  match word.toList with
  | c :: _ => c == '@' || c == '!'
  | [] => false

/-- Adds a spelling.  A word without a mark can never be scanned as a keyword and is left
out. -/
def insert (t : Table) (word : String) (k : Keyword) : Table :=
  if isMarked word then ⟨(word, k) :: t.aliases⟩ else t

/-- The meaning of a word: its latest alias, or else its built-in meaning. -/
def lookup (t : Table) (word : String) : Option Keyword :=
  match t.aliases.lookup word with
  | some k => some k
  | none => ofSpelling? word

end Table

end Keyword

end StyleSheet

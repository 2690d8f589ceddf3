import StyleSheet.Keyword

/-!
# Build options

The options of a build and how they are written on a command line.
-/

namespace StyleSheet.Build

structure Options where
  /-- Further spellings of keywords, in the order given. -/
  aliases : List (String × Keyword)
  /-- Directories to search for imports after the one of the file itself. -/
  includes : List String
  /-- The file to write to, instead of the standard output. -/
  output : Option String
  deriving DecidableEq

inductive OptionError where
  | missingPath
  | missingDirectory
  /-- An alias without an equals sign. -/
  | malformedAlias (pair : String)
  | notKeyword (word : String)
  | unknown (arg : String)
  deriving DecidableEq

namespace OptionError

def message : OptionError → String
  | missingPath => "`-o` needs a path"
  | missingDirectory => "`-I` needs a directory"
  | malformedAlias pair => "expected `<alias>=<keyword>`, found `" ++ pair ++ "`"
  | notKeyword word => "`" ++ word ++ "` is not a keyword"
  | unknown arg => "unknown option `" ++ arg ++ "`"

end OptionError

namespace Options

def empty : Options := ⟨[], [], none⟩

/-- The keywords with all aliases, later ones before earlier ones. -/
def keywords (o : Options) : Keyword.Table :=
  o.aliases.foldl (fun t a => t.insert a.1 a.2) .builtin

/-- What follows a fixed start of a text. -/
def after? (start text : String) : Option String :=
  if start.toList.isPrefixOf text.toList then
    some (String.ofList (text.toList.drop start.toList.length))
  else none

/-- An alias with its keyword, divided by the first equals sign. -/
def aliasOf (pair : String) : Except OptionError (String × Keyword) :=
  match pair.toList.span (· != '=') with
  | (_, []) => .error (.malformedAlias pair)
  | (left, _ :: right) =>
    match Keyword.ofSpelling? (String.ofList right) with
    | some k => .ok (String.ofList left, k)
    | none => .error (.notKeyword (String.ofList right))

/-- One option, as it is written. -/
inductive Flag where
  /-- The path is the next argument. -/
  | outputNext
  | output (path : String)
  /-- The directory is the next argument. -/
  | includeNext
  | includeDir (dir : String)
  | keyword (pair : String)
  | unknown

/-- What an argument says. -/
def Flag.ofArg (arg : String) : Flag :=
  if arg = "-o" then .outputNext
  else
    match after? "-o=" arg with
    | some path => .output path
    | none =>
      if arg = "-I" then .includeNext
      else
        match after? "-I" arg with
        | some dir => .includeDir dir
        | none =>
          match after? "--keyword=" arg with
          | some pair => .keyword pair
          | none => .unknown

def withOutput (o : Options) (path : String) : Options := { o with output := some path }

def withInclude (o : Options) (dir : String) : Options := { o with includes := o.includes ++ [dir] }

def withAlias (o : Options) (word : String) (k : Keyword) : Options :=
  { o with aliases := o.aliases ++ [(word, k)] }

/-- Adds the options that arguments say, up to the first error. -/
def add (o : Options) : List String → Except OptionError Options
  | [] => .ok o
  | arg :: rest =>
    match Flag.ofArg arg with
    | .outputNext =>
      match rest with
      | path :: rest => (o.withOutput path).add rest
      | [] => .error .missingPath
    | .output path => (o.withOutput path).add rest
    | .includeNext =>
      match rest with
      | dir :: rest => (o.withInclude dir).add rest
      | [] => .error .missingDirectory
    | .includeDir dir => (o.withInclude dir).add rest
    | .keyword pair =>
      match aliasOf pair with
      | .ok (word, k) => (o.withAlias word k).add rest
      | .error e => .error e
    | .unknown => .error (.unknown arg)

/-- The options that arguments say. -/
def ofArgs (args : List String) : Except OptionError Options := empty.add args

end Options

end StyleSheet.Build

import StyleSheet.Build.File
import StyleSheet.Diagnostic.Snippet
import StyleSheet.FileTree
import StyleSheet.Sheet.Outline

/-!
# Commands

What the command line asks for, and what is printed and written then.  Files are read through a
reader; a file to write is part of the result.
-/

namespace StyleSheet

/-- What a command prints, and whether it succeeded. -/
structure Report where
  exit : Nat
  stdout : String
  stderr : String
  deriving DecidableEq

namespace Report

def success (stdout : String) : Report := ⟨0, stdout, ""⟩

def failure (stderr : String) : Report := ⟨1, "", stderr⟩

/-- The report of a failure that lies in no source. -/
def error (message : String) : Report := failure ("error: " ++ message ++ "\n")

end Report

inductive Command where
  | build (path : String) (options : Build.Options)
  | lex (path : String)
  | parse (path : String)
  | help
  | version
  deriving DecidableEq

namespace Command

/-- How the command line is to be used. -/
def usage : String :=
  "QSS Compiler\n" ++
  "\n" ++
  "Usage: qssc <command> [options]\n" ++
  "\n" ++
  "Commands:\n" ++
  "  build <file>   Compile a QSS file to a Qt style sheet\n" ++
  "  lex <file>     Print the token stream\n" ++
  "  parse <file>   Print a statement outline\n" ++
  "  help           Show this message\n" ++
  "  version        Show the compiler version\n" ++
  "\n" ++
  "Environment:\n" ++
  "  RUST_LOG       Enable logging (e.g. RUST_LOG=qss_eval=debug)\n" ++
  "  QSSC_LOG_TREE  Render log spans as a tree\n"

/-- How a build is to be called. -/
def buildUsage : String :=
  "Usage: qssc build <file.qss> [options]\n" ++
  "\n" ++
  "Options:\n" ++
  "  -o <path>                   Output file (default: stdout)\n" ++
  "  -I <dir>                    Add an import search directory\n" ++
  "  --keyword=<alias>=<keyword> Accept <alias> as another spelling of <keyword>\n"

def versionText : String := "qssc 0.1.0-alpha.1\n"

/-- The command that arguments ask for, or the report of what is wrong with them. -/
def ofArgs : List String → Except Report Command
  | [] => .ok help
  | ["build"] => .error (.failure buildUsage)
  | "build" :: path :: options =>
    match Build.Options.ofArgs options with
    | .ok options => .ok (build path options)
    | .error e => .error (.error e.message)
  | ["lex"] => .error (.failure "Usage: qssc lex <file.qss>\n")
  | "lex" :: path :: _ => .ok (lex path)
  | ["parse"] => .error (.failure "Usage: qssc parse <file.qss>\n")
  | "parse" :: path :: _ => .ok (parse path)
  | "help" :: _ | "--help" :: _ | "-h" :: _ => .ok help
  | "version" :: _ | "--version" :: _ | "-V" :: _ => .ok version
  | word :: _ => .error ⟨1, usage, "Unknown command: " ++ word ++ "\n\n"⟩

/-- The report of a file that cannot be read. -/
def unreadable (path : String) : FileError → Report
  | .notFound => .error ("cannot find file '" ++ path ++ "'")
  | .permissionDenied => .error ("permission denied reading '" ++ path ++ "'")
  | .notText => .error ("'" ++ path ++ "' contains invalid UTF-8 data")
  | cause => .error ("error reading '" ++ path ++ "': " ++ cause.message)

/-- The report of a failure in a source. -/
def rejected (path source : String) (d : Diagnostic) : Report :=
  .failure (d.render path source)

/-- The listing of the tokens of a source. -/
def lexReport (path source : String) : Report :=
  match (Token.tokenize .builtin source).all with
  | .ok tokens =>
    .success ("Tokens for '" ++ path ++ "' (" ++ toString tokens.length ++ " tokens):\n" ++
      String.join (tokens.map fun t => "  " ++ t.listing ++ "\n"))
  | .error e => rejected path source e.diagnostic

/-- The outline of the statements of a source. -/
def parseReport (path source : String) : Report :=
  match Sheet.ofText .builtin source with
  | .ok sheet =>
    .success ("Parse result for '" ++ path ++ "':\n  Statements: " ++ toString sheet.length ++
      "\n\n" ++ Sheet.outlineAll 1 sheet)
  | .error e => rejected path source e.diagnostic

/-- What is left to do. -/
inductive Result where
  | report (r : Report)
  /-- Write a file. -/
  | save (path text : String)
  deriving DecidableEq

/-- The result of a build. -/
def buildResult (read : Reader) (path source : String) (options : Build.Options) : Result :=
  match Build.ofText (Build.settingFor read options.keywords path options.includes) source with
  | .ok text =>
    match options.output with
    | some file => .save file (text ++ "\n")
    | none => .report (.success (text ++ "\n"))
  | .error e =>
    match e.diagnostic? with
    | some d => .report (rejected path source d)
    | none => .report (.error e.message)

/-- Reads a file and goes on with its text. -/
def withFile (read : Reader) (path : String) (f : String → Result) : Result :=
  match read path with
  | .ok source => f source
  | .error cause => .report (unreadable path cause)

/-- The result of a command. -/
def run (read : Reader) : Command → Result
  | build path options => withFile read path fun source => buildResult read path source options
  | lex path => withFile read path fun source => .report (lexReport path source)
  | parse path => withFile read path fun source => .report (parseReport path source)
  | help => .report (.success usage)
  | version => .report (.success versionText)

/-- The result of a command line. -/
def runArgs (read : Reader) (args : List String) : Result :=
  match ofArgs args with
  | .ok command => command.run read
  | .error r => .report r

/-- The report after an attempt to write a file. -/
def saved (path : String) : Except FileError Unit → Report
  | .ok () => .success ""
  | .error cause => .error ("cannot write '" ++ path ++ "': " ++ cause.message)

/-- Runs a command line on a file tree. -/
def runIn (tree : FileTree) (args : List String) : Report × FileTree :=
  match runArgs tree.read args with
  | .report r => (r, tree)
  | .save path text =>
    match tree.write path text with
    | .ok after => (saved path (.ok ()), after)
    | .error cause => (saved path (.error cause), tree)

end Command

end StyleSheet

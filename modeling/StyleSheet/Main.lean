import StyleSheet.Command

/-!
# The command line

Reads the files that a command may need, runs the command, prints its report and writes its
output file.
-/

namespace StyleSheet.Main

/-- The number of an error of the operating system; some calls report it negated. -/
def errorNumber (code : UInt32) : UInt32 := if code < 0x80000000 then code else 0 - code

/-- The cause behind an error of the operating system. -/
def causeOf (e : IO.Error) : FileError :=
  match e with
  | .noFileOrDirectory .. => .notFound
  | .permissionDenied .. => .permissionDenied
  | .inappropriateType _ code _ =>
    if errorNumber code = 20 then .notDirectory
    else if errorNumber code = 21 then .isDirectory
    else .other (toString e)
  | .invalidArgument _ code _ =>
    if errorNumber code = 36 then .nameTooLong else .other (toString e)
  | e => .other (toString e)

/-- The text of a file. -/
def readFile (path : String) : IO (Except FileError String) := do
  if path.toList.contains '\x00' then return .error .nulInName
  try
    let content ← IO.FS.readBinFile path
    match String.fromUTF8? content with
    | some text => return .ok text
    | none => return .error .notText
  catch e => return .error (causeOf e)

def writeFile (path text : String) : IO (Except FileError Unit) := do
  try
    IO.FS.writeFile path text
    return .ok ()
  catch e => return .error (causeOf e)

/-- What was found behind the paths that were tried. -/
abbrev Found := Table (Except FileError String)

/-- Tries an import path in one directory after another, up to the first with something there. -/
def seek (path : String) : List String → Found → IO (Found × Option String)
  | [], found => return (found, none)
  | dir :: rest, found => do
    let file := Path.join dir (Search.fileOf path)
    let outcome ← readFile file
    let found := found.insert file outcome
    match outcome with
    | .ok source => return (found, some source)
    | .error .notFound => seek path rest found
    | .error _ => return (found, none)

/-- Reads the files behind import paths, and those that they import in turn. -/
partial def gather (keywords : Keyword.Table) (dirs : List String) (seen : List String)
    (paths : List String) (found : Found) : IO Found := do
  match paths with
  | [] => return found
  | path :: rest =>
    if seen.contains path then gather keywords dirs seen rest found
    else
      let (found, source) ← seek path dirs found
      let more := (source.bind fun s => (Sheet.ofText keywords s).toOption).getD []
      gather keywords dirs (path :: seen) (Sheet.importsOfAll more ++ rest) found

/-- Reads the files that a command may need. -/
def filesFor (command : Command) : IO Found := do
  match command with
  | .help | .version => return .empty
  | .lex path | .parse path => return Table.empty.insert path (← readFile path)
  | .build path options =>
    let outcome ← readFile path
    let found := Table.empty.insert path outcome
    match outcome with
    | .error _ => return found
    | .ok source =>
      let sheet := (Sheet.ofText options.keywords source).toOption.getD []
      gather options.keywords (Search.directories path options.includes) []
        (Sheet.importsOfAll sheet) found

/-- Prints a report. -/
def finish (r : Report) : IO UInt32 := do
  IO.print r.stdout
  IO.eprint r.stderr
  return UInt32.ofNat r.exit

end StyleSheet.Main

open StyleSheet in
/-- The entry point. -/
def main (args : List String) : IO UInt32 := do
  match Command.ofArgs args with
  | .error r => Main.finish r
  | .ok command =>
    let found ← Main.filesFor command
    match command.run (fun path => (found.get? path).getD (.error .notFound)) with
    | .report r => Main.finish r
    | .save path text => Main.finish (Command.saved path (← Main.writeFile path text))

import BlockScript.CommandLine.Run
import BlockScript.Text.Case

/-!
# The program

The command line on a real machine: its files and streams as a `Host`, and the exit code.
-/

namespace BlockScript

/-- What went wrong with files. -/
def FileFault.ofError (e : IO.Error) : FileFault :=
  match e with
  | .noFileOrDirectory .. => .notFound
  | .alreadyExists .. => .alreadyExists
  | .inappropriateType _ _ details =>
    if Text.asciiLower details == "is a directory" then .isFolder else .notFolder
  | e => .other e.toString

/-- Runs an operation on files. -/
def tryFile {α : Type} (work : IO α) : IO (Except FileFault α) := do
  try return .ok (← work) catch e => return .error (.ofError e)

/-- Whether a path leads to a file. -/
def isRealFile (path : String) : IO Bool := do
  try
    let resolved ← IO.FS.realPath path
    return (← resolved.metadata).type == .file
  catch _ => return false

/-- The machine that the program runs on. -/
def machine : Host IO where
  isFile := isRealFile
  absolute path := tryFile do return (← IO.FS.realPath path).toString
  read path := tryFile do return (← IO.FS.readBinFile path).toList
  write path bytes := tryFile (IO.FS.writeBinFile path bytes.toByteArray)
  makeFolders path := tryFile (IO.FS.createDirAll path)
  print text := IO.print text
  report text := IO.eprint text

/-- How the program is called. -/
def usage : String :=
  "Usage: blockscript [--decompile] [--catalog <PATH>] [--emit-json <PATH>] [--strict] " ++
    "<INPUT> [OUTPUT]"

/-- The wording of an error in a command line. -/
def UsageError.message : UsageError → String
  | missingArgument => "error: the required argument <INPUT> was not provided"
  | unknownArgument => "error: unexpected argument found"
  | invalidValue => "error: a value is required but none was supplied"
  | repeated => "error: an option cannot be used multiple times"
  | unexpectedValue => "error: an option that takes no value was given one"
  | help =>
    "Compile line-oriented block text into Scratch 3 projects, " ++
      "or decompile projects back to text."

/-- Follows a command line and gives the exit code. -/
def start (arguments : List String) : IO UInt32 := do
  match Options.parse arguments with
  | .error .help =>
    IO.println (UsageError.help.message ++ "\n\n" ++ usage)
    return 0
  | .error e =>
    IO.eprintln (e.message ++ "\n\n" ++ usage)
    return 2
  | .ok options =>
    match ← (Run.run machine options).run with
    | .ok _ => return 0
    | .error e =>
      IO.eprintln ("Error: " ++ e.message)
      return 1

end BlockScript

/-- The program. -/
def main (arguments : List String) : IO UInt32 :=
  BlockScript.start arguments

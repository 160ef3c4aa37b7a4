import BlockScript.Catalog.Builtin
import BlockScript.Catalog.Reader
import BlockScript.CommandLine.Host
import BlockScript.CommandLine.Options
import BlockScript.Compile
import BlockScript.Listing
import BlockScript.Project.Package

/-!
# Following a command line

The two jobs of the command line: making a project of a source text, and a source text of a
project. Each tells its progress stage by stage.
-/

namespace BlockScript

/-- Why a job fails. -/
inductive RunError where
  /-- A document was asked for where none is made. -/
  | noDocument
  /-- The input is no file. -/
  | inputNotFound (path : String)
  /-- The input has no path from the root. -/
  | inputUnresolved (fault : FileFault)
  /-- The file of the catalog is no text. -/
  | catalogUnreadable (path : String)
  /-- The catalog is refused. -/
  | catalog (error : CatalogError)
  /-- The source is no text, or the input is no package. -/
  | unreadable (path : String)
  /-- The project cannot be opened. -/
  | unopenable (path : String)
  /-- The input is not JSON. -/
  | notJson (path : String)
  /-- The source is refused. -/
  | source (error : SourceError)
  /-- The project is refused. -/
  | project (error : ProjectError)
  /-- There are warnings, which count as errors. -/
  | strict (count : Nat)
  /-- A file cannot be written. -/
  | unwritable (path : String)
  /-- The folder for a file cannot be made. -/
  | noFolder (fault : FileFault)
deriving DecidableEq, Repr

/-- A path as messages show it: without the mark of a path that is taken word for word. -/
def Path.shown (path : String) : String :=
  match Chars.dropPrefix? "\\\\?\\".toList path.toList with
  | some rest => String.ofList rest
  | none => path

/-- The wording of an error. -/
def RunError.message : RunError → String
  | noDocument => "--emit-json cannot be used with --decompile."
  | inputNotFound path => s!"Input file not found: '{path}'."
  | inputUnresolved fault => fault.message
  | catalogUnreadable path => "Failed to read catalog '" ++ Path.shown path ++ "'."
  | catalog error => error.message
  | unreadable path => "Failed to read '" ++ Path.shown path ++ "'."
  | unopenable path => s!"Failed to open '{path}'."
  | notJson path => s!"Invalid project.json '{path}'."
  | source error => error.message
  | project error => error.message
  | strict count => s!"{count} warning(s) treated as errors (--strict)."
  | unwritable path => "Failed to write '" ++ Path.shown path ++ "'."
  | noFolder fault => fault.message

/-! ### Progress -/

namespace Progress

/-- The number of cells of the bar. -/
def width : Nat := 14

/-- A bar that is filled up to a stage, rounded to the nearest cell. -/
def bar (stage total : Nat) : String :=
  let filled := (stage * width + total / 2) / total
  "[" ++ Text.replicate (min filled width) "=" ++ Text.replicate (width - filled) "-" ++ "]"

/-- The line that tells that a stage begins. -/
def line (job label : String) (stage total : Nat) : String :=
  s!"[{job}] {label}... ({stage}/{total}) " ++ bar stage total ++ "\n"

end Progress

namespace Run

variable {m : Type → Type} [Monad m]

/-- A job on a host. -/
abbrev Job (m : Type → Type) := ExceptT RunError m

/-- The lines that sum a compilation up. -/
def summary (compiled : Compiled) : String :=
  s!"Generated {compiled.commandCount} primary block(s).\n" ++
    s!"Generated {compiled.blockCount} total block node(s).\n" ++
    s!"Generated {compiled.stageScripts} stage script(s).\n" ++
    s!"Generated {compiled.program.sprites.length} sprite target(s).\n"

/-- The lines that tell warnings; nothing is said of none. -/
def warningLines (warnings : List Warning) : String :=
  if warnings.isEmpty then ""
  else s!"{warnings.length} warning(s):\n" ++
    String.join (warnings.map fun w ↦ "warning: " ++ w.render ++ "\n")

/-- Goes on with a value, or fails with the error that stands for what went wrong. -/
def accept {α ε : Type} (error : ε → RunError) (result : Except ε α) : Job m α :=
  match result with
  | .ok a => return a
  | .error e => throw (error e)

/-- Goes on with what an operation on files gives. -/
def attempt {α : Type} (error : FileFault → RunError) (work : m (Except FileFault α)) :
    Job m α := do
  accept error (← ExceptT.lift work)

/-- The path of the input from the root. -/
def resolveInput (host : Host m) (path : String) : Job m String := do
  if ← host.isFile path then attempt .inputUnresolved (host.absolute path)
  else throw (.inputNotFound path)

/-- The catalog to use. -/
def loadCatalog (host : Host m) (path? : Option String) : Job m Catalog := do
  match path? with
  | none => return Catalog.builtin
  | some path =>
    let text ← attempt (fun _ ↦ .catalogUnreadable path) (host.readText path)
    accept .catalog (Catalog.parse text)

/-- Tells warnings, which are errors where options say so. -/
def tellWarnings (host : Host m) (options : Options) (warnings : List Warning) :
    Job m Unit := do
  host.report (warningLines warnings)
  if options.strict && !warnings.isEmpty then
    throw (.strict warnings.length)

/-- Writes a file. -/
def writeFile (host : Host m) (path : String) (bytes : List UInt8) : Job m Unit :=
  attempt (fun _ ↦ .unwritable path) (host.write path bytes)

/-! ### From source to project -/

/-- Reads the file of a costume from the folder of the source. -/
def costumeReader (host : Host m) (folder : String) : Costume.FileReader m := fun source ↦ do
  let path := Path.join folder source
  return (← host.readText path).mapError fun fault ↦ .unreadable path fault.message

/-- Writes the package of a project, in a folder that is made if it is missing. -/
def writePackage (host : Host m) (path : String) (project : Project) : Job m Unit := do
  let folder := Path.parent path
  if !folder.isEmpty then
    attempt .noFolder (host.makeFolders folder)
  writeFile host path (Package.ofProject project)

/-- Writes what options ask for of a project. -/
def writeProject (host : Host m) (options : Options) (tell : Nat → String → Job m Unit)
    (project : Project) : Job m Unit := do
  match options.emitJson with
  | some path =>
    tell 6 "Writing project.json"
    writeFile host path (Text.utf8 project.document.render)
  | none => pure ()
  match options.output with
  | some path =>
    tell (if options.emitJson.isSome then 7 else 6) "Building .sb3"
    writePackage host path project
  | none => pure ()

/-- Makes a project of a source text. -/
def compile (host : Host m) (options : Options) : Job m Unit := do
  let needsProject := options.output.isSome || options.emitJson.isSome
  let total := 4 + needsProject.toNat + options.emitJson.isSome.toNat + options.output.isSome.toNat
  let tell (stage : Nat) (label : String) : Job m Unit :=
    host.report (Progress.line "Compile" label stage total)
  tell 1 "Resolving input path"
  let input ← resolveInput host options.input
  let catalog ← loadCatalog host options.catalog
  tell 2 "Reading source"
  let source ← attempt (fun _ ↦ .unreadable input) (host.readText input)
  tell 3 "Splitting program"
  let outline ← accept .source (Outline.ofText source)
  tell 4 "Building block graph"
  let compiled ← accept .source (Compile.ofOutline catalog outline)
  if needsProject then
    tell 5 "Assembling project"
    let project ← ExceptT.lift
      (Project.ofProgram (some (costumeReader host (Path.parent input))) compiled.program)
    host.report (summary compiled)
    tellWarnings host options (compiled.warnings ++ project.warnings)
    writeProject host options tell project
  else
    host.report (summary compiled)
    tellWarnings host options compiled.warnings

/-! ### From project to source -/

/-- Whether a file is a document by itself, rather than a package. -/
def isDocument (path : String) : Bool :=
  match Path.extension? path with
  | some ending => Text.asciiLower ending == "json"
  | none => false

/-- Reads a project from a document or a package. -/
def readProject (host : Host m) (path : String) : Job m (Json × Files) := do
  let bytes ← attempt (fun _ ↦ .unopenable path) (host.read path)
  if isDocument path then
    match (Text.ofUtf8? bytes).bind Json.parse? with
    | some document => return (document, ∅)
    | none => throw (.notJson path)
  else
    accept (fun _ ↦ .unreadable path) (Package.read bytes)

/-- A text that ends with a line feed. -/
def endLine (text : String) : String :=
  if Text.endsWith text "\n" then text else text ++ "\n"

/-- Makes a source text of a project. -/
def decompile (host : Host m) (options : Options) : Job m Unit := do
  let total := 4 + options.output.isSome.toNat
  let tell (stage : Nat) (label : String) : Job m Unit :=
    host.report (Progress.line "Decompile" label stage total)
  tell 1 "Resolving input path"
  let input ← resolveInput host options.input
  let catalog ← loadCatalog host options.catalog
  tell 2 "Reading project"
  let (document, files) ← readProject host input
  tell 3 "Rebuilding block graph"
  let program ← accept .project (Project.toProgram document files)
  tell 4 "Rendering source"
  let listing := Listing.ofProgram catalog program
  tellWarnings host options listing.warnings
  match options.output with
  | some path =>
    tell 5 "Writing source"
    writeFile host path (Text.utf8 (endLine listing.text))
  | none => host.print (endLine listing.text)

/-- Does what options ask for. -/
def run (host : Host m) (options : Options) : Job m Unit :=
  if !options.decompile then compile host options
  else if options.emitJson.isSome then throw .noDocument
  else decompile host options

end Run

end BlockScript

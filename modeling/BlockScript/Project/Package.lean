import BlockScript.Archive.Zip
import BlockScript.Project.Decode

/-!
# Packages

A package is an archive with the document of a project and its files.
-/

namespace BlockScript

/-- Why bytes are no package. -/
inductive PackageError where
  /-- The bytes are no archive. -/
  | notArchive
  /-- There is no document that can be opened. -/
  | noDocument
  /-- A file of the archive cannot be had. -/
  | file (error : Archive.FileError)
  /-- The document is no text. -/
  | notUtf8
  /-- The document is not JSON. -/
  | notJson
  /-- The document is no project. -/
  | project (error : ProjectError)
deriving DecidableEq, Repr

/-- The wording of an error. -/
def PackageError.message : PackageError → String
  | notArchive => "input is not a valid zip/.sb3 file."
  | noDocument => "Invalid .sb3 file: project.json not found."
  | file error => error.message
  | notUtf8 => "stream did not contain valid UTF-8"
  | notJson => "Invalid project.json inside archive."
  | project error => error.message

namespace Package

/-- The name of the document of a project. -/
def documentName : String := "project.json"

/-- Reads the document of a project. -/
def readDocument (entries : List Archive.Entry) : Except PackageError Json :=
  match entries.find? (·.name == documentName) with
  | none => .error .noDocument
  | some entry =>
    match entry.check with
    | .error _ => .error .noDocument
    | .ok () => do
      let bytes ← entry.bytes.mapError .file
      match Text.ofUtf8? bytes with
      | none => throw .notUtf8
      | some text =>
        match Json.parse? text with
        | some document => return document
        | none => throw .notJson

/-- Reads a file other than the document; folders have none. -/
def readEntry? (entry : Archive.Entry) : Except PackageError (Option (String × List UInt8)) := do
  entry.check.mapError .file
  if entry.name == documentName || Text.endsWith entry.name "/" then
    return none
  else
    return some (entry.name, ← entry.bytes.mapError .file)

/-- The document and the files of a package. -/
def read (bytes : List UInt8) : Except PackageError (Json × Files) := do
  match Archive.read? bytes with
  | none => throw .notArchive
  | some entries =>
    let document ← readDocument entries
    let files ← entries.mapM readEntry?
    return (document, Dict.ofList (files.filterMap id))

/-- The program of a package. -/
def toProgram (bytes : List UInt8) : Except PackageError Program := do
  let (document, files) ← read bytes
  (Project.toProgram document files).mapError .project

/-- The package of a project. -/
def ofProject (project : Project) : List UInt8 :=
  Archive.write ((documentName, Text.utf8 project.document.render) :: project.files.entries)

end Package

end BlockScript

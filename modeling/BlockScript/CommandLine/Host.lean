import BlockScript.Text.Basic
import BlockScript.Text.Utf8

/-!
# Hosts

What the command line needs from the machine it runs on: files, and two streams to write to. The
machine can be a real one or a `Folder` in memory; every operation that can fail tells why.
-/

namespace BlockScript

/-- Why an operation on files fails. -/
inductive FileFault where
  /-- There is no such file or folder. -/
  | notFound
  /-- A file with the name of the folder exists. -/
  | alreadyExists
  /-- A file is used as a folder. -/
  | notFolder
  /-- A folder is used as a file. -/
  | isFolder
  /-- A name is too long. -/
  | nameTooLong
  /-- A path holds a character that no path may hold. -/
  | badPath
  /-- A file is no text. -/
  | notUtf8
  /-- Anything else. -/
  | other (reason : String)
deriving DecidableEq, Repr

/-- The wording of a fault. -/
def FileFault.message : FileFault → String
  | notFound => "No such file or directory (os error 2)"
  | alreadyExists => "File exists (os error 17)"
  | notFolder => "Not a directory (os error 20)"
  | isFolder => "Is a directory (os error 21)"
  | nameTooLong => "File name too long (os error 36)"
  | badPath => "file name contained an unexpected NUL byte"
  | notUtf8 => "stream did not contain valid UTF-8"
  | other reason => reason

/-- A machine with files. -/
structure Host (m : Type → Type) where
  /-- Whether a path leads to a file. -/
  isFile : String → m Bool
  /-- The path from the root that an existing file has. -/
  absolute : String → m (Except FileFault String)
  /-- The bytes of a file. -/
  read : String → m (Except FileFault (List UInt8))
  /-- Writes a file. -/
  write : String → List UInt8 → m (Except FileFault Unit)
  /-- Makes a folder and all folders around it, as far as they are missing. -/
  makeFolders : String → m (Except FileFault Unit)
  /-- Writes to the stream of results. -/
  print : String → m Unit
  /-- Writes to the stream of messages. -/
  report : String → m Unit

/-- Bytes as a text. -/
def FileFault.textOf (bytes : List UInt8) : Except FileFault String :=
  match Text.ofUtf8? bytes with
  | some text => .ok text
  | none => .error .notUtf8

/-- The text of a file. -/
def Host.readText {m : Type → Type} [Monad m] (host : Host m) (path : String) :
    m (Except FileFault String) := do
  return (← host.read path) >>= FileFault.textOf

/-! ### Paths -/

namespace Path

/-- The parts of a path between slashes. -/
def parts (path : String) : List String :=
  (path.toList.foldr (fun c parts ↦
    if c == '/' then [] :: parts
    else match parts with
      | part :: rest => (c :: part) :: rest
      | [] => [[c]]) [[]]).map String.ofList

/-- The names in a path: its parts but those that say nothing. -/
def names (path : String) : List String :=
  (parts path).filter fun part ↦ !part.isEmpty && part != "."

/-- Whether a path starts at the root. -/
def isAbsolute (path : String) : Bool :=
  path.toList.head? == some '/'

/-- Whether a path can only lead to a folder. -/
def isFolderPath (path : String) : Bool :=
  match (parts path).getLast? with
  | some last => last.isEmpty || last == "." || last == ".."
  | none => true

/-- The folder around what a path leads to; nothing for a single name. -/
def parent (path : String) : String :=
  let around := Text.join "/" (names path).dropLast
  if isAbsolute path then "/" ++ around else around

/-- The path of a file given from a folder. -/
def join (folder path : String) : String :=
  if isAbsolute path then path
  else if Text.endsWith folder "/" then folder ++ path
  else folder ++ "/" ++ path

/-- The ending of the name of a file after its last point, which does not start the name. -/
def extension? (path : String) : Option String := do
  let name ← (names path).getLast?
  let reversed := name.toList.reverse
  match reversed.dropWhile (· != '.') with
  | _ :: _ :: _ => return String.ofList (reversed.takeWhile (· != '.')).reverse
  | _ => none

end Path

end BlockScript

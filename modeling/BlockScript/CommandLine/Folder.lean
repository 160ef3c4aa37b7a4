import BlockScript.CommandLine.Host
import BlockScript.Project.Encode

/-!
# Folders in memory

A host whose files are all inside one folder, which is also where paths start that are not
absolute. Nothing is known outside it.
-/

namespace BlockScript

/-- A folder with all files and folders in it, by their paths from it. -/
structure Folder where
  /-- The path of the folder itself. -/
  root : String
  /-- The files. -/
  files : Files := ∅
  /-- The folders. -/
  folders : Dict Unit := ∅
deriving DecidableEq, Repr

namespace Folder

/-- The greatest number of bytes in a name. -/
def nameLimit : Nat := 255

/-- The key of a file or folder. -/
def key (names : List String) : String :=
  Text.join "/" names

/-- Whether names lead to a folder. -/
def hasFolder (f : Folder) (names : List String) : Bool :=
  names.isEmpty || f.folders.contains (key names)

/-- Goes one name further from a folder, given the names that lead there. -/
def enter (f : Folder) (place : List String) (name : String) : Except FileFault (List String) :=
  if !f.hasFolder place then
    if f.files.contains (key place) then .error .notFolder else .error .notFound
  else if name == ".." then
    if place.isEmpty then .error .notFound else .ok place.dropLast
  else if nameLimit < (Text.utf8 name).length then .error .nameTooLong
  else .ok (place ++ [name])

/-- The names of a path from the folder on. -/
def namesOf (f : Folder) (path : String) : Except FileFault (List String) :=
  if path.toList.contains (Char.ofNat 0) then .error .badPath
  else if Text.startsWith path (f.root ++ "/") then
    .ok (Path.names (String.ofList (path.toList.drop f.root.length)))
  else if path == f.root then .ok []
  else if Path.isAbsolute path then .error .notFound
  else .ok (Path.names path)

/-- The place that a path leads to, whether there is anything or not. -/
def locate (f : Folder) (path : String) : Except FileFault (List String) := do
  let place ← (← f.namesOf path).foldlM f.enter []
  if Path.isFolderPath path && f.files.contains (key place) then throw .notFolder
  return place

/-- The bytes of a file. -/
def read (f : Folder) (path : String) : Except FileFault (List UInt8) := do
  let place ← f.locate path
  match f.files.find? (key place) with
  | some bytes => return bytes
  | none => if f.hasFolder place then throw .isFolder else throw .notFound

/-- Whether a path leads to a file. -/
def isFile (f : Folder) (path : String) : Bool :=
  match f.read path with
  | .ok _ => true
  | .error _ => false

/-- The path from the root that a file has. -/
def absolute (f : Folder) (path : String) : Except FileFault String := do
  let place ← f.locate path
  return Text.join "/" (f.root :: place)

/-- The folder with a file written. -/
def write (f : Folder) (path : String) (bytes : List UInt8) : Except FileFault Folder := do
  let place ← f.locate path
  if f.hasFolder place || Path.isFolderPath path then throw .isFolder
  return { f with files := f.files.insert (key place) bytes }

/-- The folder with one more folder in it, if that is not there yet. -/
def makeFolder (state : Folder × List String) (name : String) :
    Except FileFault (Folder × List String) := do
  let (f, place) := state
  let next ← f.enter place name
  if f.hasFolder next then return (f, next)
  else if f.files.contains (key next) then return (f, next)
  else return ({ f with folders := f.folders.insert (key next) () }, next)

/-- The folder with all folders on a path made. -/
def makeFolders (f : Folder) (path : String) : Except FileFault Folder := do
  let (f, place) ← (← f.namesOf path).foldlM makeFolder (f, [])
  if f.hasFolder place then return f else throw .alreadyExists

/-- The folder that holds some files, with the folders around them. -/
def ofFiles (root : String) (files : Files) : Folder :=
  { root
    files
    folders := Dict.ofList (files.keys.flatMap fun path ↦
      let names := Path.names path
      (List.range (names.length - 1)).map fun i ↦ (key (names.take (i + 1)), ())) }

end Folder

/-! ### Sessions -/

/-- A folder with what was written to the two streams. -/
structure Session where
  /-- The folder. -/
  folder : Folder
  /-- The results. -/
  output : String := ""
  /-- The messages. -/
  messages : String := ""
deriving DecidableEq, Repr

namespace Session

/-- Takes over a changed folder. -/
def change (result : Except FileFault Folder) : StateM Session (Except FileFault Unit) := do
  match result with
  | .ok folder =>
    modify fun s ↦ { s with folder }
    return .ok ()
  | .error fault => return .error fault

/-- The host whose files are those of a folder. -/
def host : Host (StateM Session) where
  isFile path := do return (← get).folder.isFile path
  absolute path := do return (← get).folder.absolute path
  read path := do return (← get).folder.read path
  write path bytes := do change ((← get).folder.write path bytes)
  makeFolders path := do change ((← get).folder.makeFolders path)
  print text := modify fun s ↦ { s with output := s.output ++ text }
  report text := modify fun s ↦ { s with messages := s.messages ++ text }

end Session

end BlockScript

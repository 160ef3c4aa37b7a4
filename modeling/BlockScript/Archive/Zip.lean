import BlockScript.Archive.Checksum
import BlockScript.Archive.Inflate
import BlockScript.Text.Utf8

/-!
# Archives

An archive holds files one after the other, each behind a header of its own, then a directory with
one entry for each file, and at its end a record that tells where the directory is. Anything may
stand in front of the archive; then the places it tells are counted from its own start.
-/

namespace BlockScript.Archive

/-! ### Numbers -/

/-- A number in the given number of bytes, the low byte first. -/
def littleEndian : Nat → Nat → List UInt8
  | 0, _ => []
  | width + 1, n => UInt8.ofNat n :: littleEndian width (n / 256)

/-- The number that bytes stand for, the low byte first. -/
def number : List UInt8 → Nat
  | [] => 0
  | b :: rest => b.toNat + 256 * number rest

/-- The number in some bytes of a record. -/
def numberAt (record : List UInt8) (start width : Nat) : Nat :=
  number ((record.drop start).take width)

/-! ### Records -/

/-- What the header of a file starts with. -/
def fileMark : List UInt8 := [0x50, 0x4B, 0x03, 0x04]

/-- What an entry of the directory starts with. -/
def entryMark : List UInt8 := [0x50, 0x4B, 0x01, 0x02]

/-- What the last record starts with. -/
def endMark : List UInt8 := [0x50, 0x4B, 0x05, 0x06]

/-- The length of the header of a file, without its name and notes. -/
def fileHeaderLength : Nat := 30

/-- The length of an entry of the directory, without its name and notes. -/
def entryLength : Nat := 46

/-- The length of the last record, without its comment. -/
def endLength : Nat := 22

/-- A file of an archive, as its directory tells. -/
structure Entry where
  /-- The name. -/
  name : String
  /-- Whether the file is encrypted. -/
  encrypted : Bool
  /-- How the file is compressed. -/
  method : Nat
  /-- The checksum of the file. -/
  checksum : UInt32
  /-- The bytes as they are stored. -/
  stored : List UInt8
deriving DecidableEq, Repr

/-- The upper half of the character set of names that are not marked as UTF-8. -/
def upperHalf : String :=
  "ÇüéâäàåçêëèïîìÄÅÉæÆôöòûùÿÖÜ¢£¥₧ƒáíóúñÑªº¿⌐¬½¼¡«»░▒▓│┤╡╢╖╕╣║╗╝╜╛┐" ++
    "└┴┬├─┼╞╟╚╔╩╦╠═╬╧╨╤╥╙╘╒╓╫╪┘┌█▄▌▐▀αßΓπΣσµτΦΘΩδ∞φε∩≡±≥≤⌠⌡÷≈°∙·√ⁿ²■\u00a0"

/-- A character of the character set of names that are not marked as UTF-8. -/
def nameChar (b : UInt8) : Char :=
  if b < 128 then Char.ofNat b.toNat else (upperHalf.toList[b.toNat - 128]?).getD ' '

/-- The name that bytes stand for. -/
def nameOf (bytes : List UInt8) (isUtf8 : Bool) : String :=
  let plain := String.ofList (bytes.map nameChar)
  if isUtf8 then (Text.ofUtf8? bytes).getD plain else plain

/-! ### Reading -/

/-- The bytes of a file from the place of its header on. -/
def storedAt? (archive : List UInt8) (start size : Nat) : Option (List UInt8) :=
  let record := archive.drop start
  if fileMark.isPrefixOf record && fileHeaderLength ≤ record.length then
    some ((record.drop
      (fileHeaderLength + numberAt record 26 2 + numberAt record 28 2)).take size)
  else none

/-- Reads an entry of the directory and gives what follows it. Places are counted from `base`, and
no file starts in the directory or behind it. -/
def entry? (archive : List UInt8) (base directory : Nat) (record : List UInt8) :
    Option (Entry × List UInt8) :=
  let nameLength := numberAt record 28 2
  let noteLength := numberAt record 30 2 + numberAt record 32 2
  let flags := numberAt record 8 2
  let start := base + numberAt record 42 4
  if entryMark.isPrefixOf record && entryLength + nameLength + noteLength ≤ record.length &&
      start < directory then do
    let stored ← storedAt? archive start (numberAt record 20 4)
    return ({
      name := nameOf ((record.drop entryLength).take nameLength) (flags.testBit 11)
      encrypted := flags.testBit 0
      method := numberAt record 10 2
      checksum := UInt32.ofNat (numberAt record 16 4)
      stored },
      record.drop (entryLength + nameLength + noteLength))
  else none

/-- Reads some entries of the directory. -/
def entries? (archive : List UInt8) (base directory : Nat) :
    Nat → List UInt8 → Option (List Entry)
  | 0, _ => some []
  | count + 1, record => do
    let (entry, rest) ← entry? archive base directory record
    return entry :: (← entries? archive base directory count rest)

/-- The places where a last record may be, from first to last, with what stands there. -/
def endRecords (place : Nat) : List UInt8 → List (Nat × List UInt8)
  | [] => []
  | b :: rest =>
    let others := endRecords (place + 1) rest
    if endMark.isPrefixOf (b :: rest) then (place, b :: rest) :: others else others

/-- Reads an archive by the last record at some place. -/
def readFrom? (archive : List UInt8) (place : Nat) (record : List UInt8) : Option (List Entry) :=
  let size := numberAt record 12 4
  let offset := numberAt record 16 4
  if endLength + numberAt record 20 2 ≤ record.length && endLength ≤ record.length &&
      numberAt record 4 2 = numberAt record 6 2 && size + offset ≤ place then
    let shifted := place - size - offset
    let base := if entryMark.isPrefixOf (archive.drop (shifted + offset)) then shifted else 0
    entries? archive base (base + offset) (numberAt record 8 2) (archive.drop (base + offset))
  else none

/-- Adds a file. A second file of a name takes the place of the first one. -/
def putEntry (entry : Entry) : List Entry → List Entry
  | [] => [entry]
  | first :: rest => if first.name = entry.name then entry :: rest else first :: putEntry entry rest

/-- The files of an archive in order, one for each name. -/
def read? (archive : List UInt8) : Option (List Entry) :=
  ((endRecords 0 archive).reverse.findSome? fun found ↦
    readFrom? archive found.1 found.2).map fun entries ↦
      entries.foldl (fun all entry ↦ putEntry entry all) []

/-! ### Files -/

/-- Why a file of an archive cannot be had. -/
inductive FileError where
  /-- The file is encrypted. -/
  | encrypted
  /-- The file is compressed in an unknown way. -/
  | unknownMethod
  /-- The compressed bytes break the rules. -/
  | corrupt
  /-- The checksum is wrong. -/
  | badChecksum
deriving DecidableEq, Repr

/-- The wording of an error. -/
def FileError.message : FileError → String
  | encrypted => "unsupported Zip archive: Password required to decrypt file"
  | unknownMethod => "unsupported Zip archive: Compression method not supported"
  | corrupt => "corrupt deflate stream"
  | badChecksum => "Invalid checksum"

/-- Whether a file can be opened, whatever its bytes. -/
def Entry.check (e : Entry) : Except FileError Unit :=
  if e.encrypted then .error .encrypted
  else if e.method = 0 || e.method = 8 then .ok ()
  else .error .unknownMethod

/-- The bytes of a file. -/
def Entry.bytes (e : Entry) : Except FileError (List UInt8) := do
  e.check
  let bytes ←
    if e.method = 0 then pure e.stored
    else match Inflate.decompress? e.stored with
      | some bytes => pure bytes
      | none => throw .corrupt
  if Checksum.ofBytes bytes = e.checksum then return bytes else throw .badChecksum

/-! ### Writing -/

/-- The part of a header that a file and its directory entry share: the version, the marks that
names are UTF-8 and that nothing is compressed, the date, the checksum and the sizes. -/
def commonHeader (name bytes : List UInt8) : List UInt8 :=
  littleEndian 2 20 ++ littleEndian 2 0x800 ++ littleEndian 2 0 ++ littleEndian 2 0 ++
    littleEndian 2 0x21 ++ littleEndian 4 (Checksum.ofBytes bytes).toNat ++
    littleEndian 4 bytes.length ++ littleEndian 4 bytes.length ++ littleEndian 2 name.length ++
    littleEndian 2 0

/-- A file behind its header. -/
def fileRecord (name : String) (bytes : List UInt8) : List UInt8 :=
  let name := Text.utf8 name
  fileMark ++ commonHeader name bytes ++ name ++ bytes

/-- The directory entry of a file at some place. -/
def entryRecord (name : String) (bytes : List UInt8) (place : Nat) : List UInt8 :=
  let name := Text.utf8 name
  entryMark ++ littleEndian 2 20 ++ commonHeader name bytes ++ littleEndian 2 0 ++
    littleEndian 2 0 ++ littleEndian 2 0 ++ littleEndian 4 0 ++ littleEndian 4 place ++ name

/-- The files and the directory entries of an archive, from some place on. -/
def records : Nat → List (String × List UInt8) → List UInt8 × List UInt8
  | _, [] => ([], [])
  | place, (name, bytes) :: rest =>
    let file := fileRecord name bytes
    let (files, directory) := records (place + file.length) rest
    (file ++ files, entryRecord name bytes place ++ directory)

/-- The archive of some files. -/
def write (files : List (String × List UInt8)) : List UInt8 :=
  let (contents, directory) := records 0 files
  contents ++ directory ++ endMark ++ littleEndian 2 0 ++ littleEndian 2 0 ++
    littleEndian 2 files.length ++ littleEndian 2 files.length ++
    littleEndian 4 directory.length ++ littleEndian 4 contents.length ++ littleEndian 2 0

end BlockScript.Archive

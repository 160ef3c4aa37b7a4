import BlockScript.Catalog.Basic
import BlockScript.Diagnostic

/-!
# A target under construction

A `Draft` holds the blocks made so far from the lines of one target, with the two cursors that
say where the next block goes: the last block of the open script, and a stack of *frames*, one
for each nesting block that is still open. Every change of a draft is one of the operations of
this file. Blocks are never removed, and an identifier is drawn for each new one.
-/

namespace BlockScript

/-! ### Frames -/

/-- A sub-chain of a nesting block. -/
structure Branch where
  /-- The input that holds its first block. -/
  input : String
  /-- Its last block, if it has any. -/
  last : Option BlockId := none
deriving DecidableEq, Repr

/-- The sub-chains of an open nesting block. -/
inductive Branches where
  /-- One sub-chain. -/
  | single (body : Branch)
  /-- The first sub-chain of a conditional that may still get a second one. -/
  | ifThen (body : Branch)
  /-- Two sub-chains, of which the second is being filled or not yet. -/
  | ifElse (body otherwise : Branch) (inElse : Bool)
deriving DecidableEq, Repr

namespace Branches

/-- The sub-chains a command starts with. -/
def ofCommand (command : Command) : Branches :=
  match command.stackNames with
  | first :: rest =>
    if command.opcode == Opcode.ifThen then .ifThen ⟨first, none⟩
    else match rest with
      | second :: _ => .ifElse ⟨first, none⟩ ⟨second, none⟩ false
      | [] => .single ⟨first, none⟩
  | [] => .single ⟨"SUBSTACK", none⟩

/-- The sub-chains after an else. -/
def enterElse : Branches → Except Fault Branches
  | ifThen body => .ok (.ifElse body ⟨"SUBSTACK2", none⟩ true)
  | ifElse _ _ true => .error .repeatedElse
  | ifElse body otherwise false => .ok (.ifElse body otherwise true)
  | single _ => .error .misplacedElse

/-- The sub-chain that the next block goes into. -/
def active : Branches → Branch
  | single body => body
  | ifThen body => body
  | ifElse body otherwise inElse => if inElse then otherwise else body

/-- The sub-chains after a block was appended to the active one. -/
def extend (id : BlockId) : Branches → Branches
  | single body => .single { body with last := some id }
  | ifThen body => .ifThen { body with last := some id }
  | ifElse body otherwise inElse =>
    if inElse then .ifElse body { otherwise with last := some id } inElse
    else .ifElse { body with last := some id } otherwise inElse

end Branches

/-- An open nesting block. -/
structure Frame where
  /-- The block. -/
  block : BlockId
  /-- The command that made it. -/
  command : String
  /-- The line of that command. -/
  line : Nat
  /-- Its sub-chains. -/
  branches : Branches
deriving DecidableEq, Repr

/-! ### Drafts -/

/-- A target under construction. -/
structure Draft where
  /-- The blocks so far. -/
  blocks : Dict Block := ∅
  /-- The warnings so far. -/
  warnings : List Warning := []
  /-- Where identifiers come from. -/
  ids : IdSource := {}
  /-- The symbols declared and seen. -/
  symbols : Symbols := {}
  /-- The extensions in use. -/
  extensions : Dict Unit := ∅
  /-- The height at which the next script is placed. -/
  nextY : Int := 64
  /-- The last block of the open script. -/
  script : Option BlockId := none
  /-- The open nesting blocks, innermost first. -/
  frames : List Frame := []
  /-- The number of commands that made a block. -/
  commandCount : Nat := 0
deriving DecidableEq, Repr

/-- The distance of scripts from the left edge. -/
def scriptX : Int := 64

/-- The distance between the heights of two scripts. -/
def scriptStep : Int := 140

/-- Where a new block belongs. -/
inductive Role where
  /-- It starts a script. -/
  | entry
  /-- It is appended to a chain later on. -/
  | statement
  /-- It gives the value of a slot of a block. -/
  | value (owner : BlockId)
  /-- It is the fallback of a slot of a block. -/
  | shadow (owner : BlockId)
deriving DecidableEq, Repr

namespace Draft

/-- Adds a warning. -/
def warn (d : Draft) (line : Nat) (remark : Remark) : Draft :=
  { d with warnings := d.warnings ++ [⟨line, remark, none⟩] }

/-- A new block as it is when it is made. -/
def newBlock (d : Draft) (opcode : String) : Role → Block
  | .entry => { opcode, place := some ⟨scriptX, d.nextY⟩ }
  | .statement => { opcode }
  | .value owner => { opcode, parent := some owner }
  | .shadow owner => { opcode, parent := some owner, shadow := true }

/-- Makes a block. A block that starts a script moves the place of the next one down. -/
def create (d : Draft) (opcode : String) (role : Role) : BlockId × Draft :=
  let (id, ids) := d.ids.next "blk"
  (id, { d with
    ids
    blocks := d.blocks.insert id (d.newBlock opcode role)
    nextY := if role = .entry then d.nextY + scriptStep else d.nextY })

/-- Changes a block. -/
def update (d : Draft) (id : BlockId) (f : Block → Block) : Draft :=
  { d with blocks := d.blocks.modify id f }

/-- Fills an input of a block. -/
def setInput (d : Draft) (id : BlockId) (name : String) (slot : Slot) : Draft :=
  d.update id fun b ↦ { b with inputs := b.inputs.insert name slot }

/-- Fills a field of a block. -/
def setField (d : Draft) (id : BlockId) (name : String) (field : Field) : Draft :=
  d.update id fun b ↦ { b with fields := b.fields.insert name field }

/-- Gives a block a parent. -/
def setParent (d : Draft) (id parent : BlockId) : Draft :=
  d.update id fun b ↦ { b with parent := some parent }

/-- Gives a block the procedure it is about. -/
def setProcedure (d : Draft) (id : BlockId) (signature : String) : Draft :=
  d.update id fun b ↦ { b with procedure := some { signature } }

/-- Puts a block after another one. -/
def link (d : Draft) (first second : BlockId) : Draft :=
  (d.update first fun b ↦ { b with next := some second }).setParent second first

/-- Notes that an extension is used. -/
def useExtension (d : Draft) (extension? : Option String) : Draft :=
  match extension? with
  | some name => { d with extensions := d.extensions.insert name () }
  | none => d

/-- The symbol a name refers to, declared if it is new. -/
def intern (d : Draft) (kind : SymbolKind) (name initial : String) : Symbol × Draft :=
  let (symbol, symbols, ids) := d.symbols.intern kind name initial d.ids
  (symbol, { d with symbols, ids })

/-- The field for a text: bound to the symbol that the text names, where it names one. -/
def fieldFor (d : Draft) (symbols : Option SymbolKind) (text fallback : String) : Field × Draft :=
  match symbols with
  | some kind =>
    let (symbol, d) := d.intern kind (Text.nameOr text fallback) ""
    (⟨symbol.name, some symbol.id⟩, d)
  | none => (⟨text, none⟩, d)

/-! ### Cursors -/

/-- Opens the script that starts with a block. -/
def openScript (d : Draft) (head : BlockId) : Draft :=
  { d with script := some head, frames := [] }

/-- Opens a script that runs when the program starts, unless a script is open. -/
def ensureScript (d : Draft) : Draft :=
  if d.script.isSome then d
  else
    let (head, d) := d.create Opcode.flagClicked .entry
    d.openScript head

/-- Appends a block to the innermost open sub-chain, or else to the open script. -/
def append (d : Draft) (id : BlockId) : Draft :=
  match d.frames with
  | frame :: outer =>
    let branch := frame.branches.active
    let d := { d with frames := { frame with branches := frame.branches.extend id } :: outer }
    match branch.last with
    | none => (d.setInput frame.block branch.input (.block id)).setParent id frame.block
    | some last => d.link last id
  | [] =>
    match d.script with
    | some last => { d with script := some id }.link last id
    | none => d

/-- Opens a nesting block. -/
def openFrame (d : Draft) (frame : Frame) : Draft :=
  { d with frames := frame :: d.frames }

/-- Counts a command. -/
def countCommand (d : Draft) : Draft :=
  { d with commandCount := d.commandCount + 1 }

end Draft

/-- Work on a draft that may end with an error; what was done before the error stays done. -/
abbrev Build := EStateM SourceError Draft

namespace Build

/-- Ends the work with a fault. -/
def fail {α : Type} (line : Nat) (fault : Fault) : Build α :=
  throw ⟨line, fault⟩

/-- Adds a warning. -/
def warn (line : Nat) (remark : Remark) : Build Unit :=
  modify fun d ↦ d.warn line remark

/-- Makes a block. -/
def create (opcode : String) (role : Role) : Build BlockId :=
  modifyGet fun d ↦ d.create opcode role

end Build

end BlockScript

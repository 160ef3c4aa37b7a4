import BlockScript.Outline
import BlockScript.Script.Expression

/-!
# Statement lines

One line of a script at a time: its first word says which command it is, and the kind of the
command says where its block goes. `Script.build` makes one target from its lines.
-/

namespace BlockScript

namespace Build

/-! ### Commands that make no statement block -/

/-- Closes the innermost nesting block, or else the script. -/
def closeBlock (line : Nat) : Build Unit := do
  let d ← get
  match d.frames, d.script with
  | _ :: outer, _ => set { d with frames := outer }
  | [], some _ => set { d with script := none }
  | [], none => fail line .strayEnd

/-- Goes on to the second branch of the innermost nesting block. The block is closed by an else
that it cannot take. -/
def enterElse (line : Nat) : Build Unit := do
  let d ← get
  match d.frames with
  | [] => fail line .strayElse
  | frame :: outer =>
    set { d with frames := outer }
    match frame.branches.enterElse with
    | .error fault => fail line fault
    | .ok branches => do
      if let .ifThen _ := frame.branches then
        modify fun d ↦ d.update frame.block fun b ↦ { b with opcode := Opcode.ifElse }
      modify fun d ↦ d.openFrame { frame with branches }

/-- The symbol that a declaring command declares, with its initial value. -/
def declaration? (name : String) (args : List String) : Option (SymbolKind × String) :=
  if name == "make_var" then
    some (.vars, if args.length > 1 then Text.join " " (args.drop 1) else "0")
  else if name == "make_list" then some (.lists, "")
  else if name == "make_broadcast" then some (.broadcasts, "")
  else none

/-- Declares a symbol. -/
def declare (line : Nat) (name : String) (args : List String) : Build Unit :=
  match declaration? name args with
  | some (kind, initial) =>
    modify fun d ↦ (d.intern kind (Text.nameOr (args.head?.getD "") kind.fallbackName) initial).2
  | none => fail line (.unknownDeclaration name)

/-! ### Procedures -/

/-- The procedure that the words of a line name, in its first spelling. -/
def signature (args : List String) : Build String := do
  let name := Text.nameOr (Text.join " " args) SymbolKind.procedures.fallbackName
  let symbol ← modifyGet fun d ↦ d.intern .procedures name ""
  return symbol.name

/-- Starts the definition of a procedure. -/
def define (args : List String) : Build Unit := do
  let name ← signature args
  let definition ← create Opcode.definition .entry
  let prototype ← create Opcode.prototype (.shadow definition)
  modify fun d ↦
    (((d.setInput definition "custom_block" (.shadow prototype)).setProcedure
      prototype name).openScript definition).countCommand

/-! ### Statements -/

/-- Makes the block of a statement and puts it into the script. -/
def statement (embed : Embed) (line : Nat) (command : Command) (tokens raw : List String) :
    Build Unit := do
  let isHat := command.kind == .hat
  let block ← create command.opcode (if isHat then .entry else .statement)
  bindSlots embed line command (.ofLine tokens raw) block
  modify fun d ↦ if isHat then d.openScript block else d.append block
  match command.kind with
  | .nesting =>
    modify fun d ↦ d.openFrame ⟨block, command.name, line, Branches.ofCommand command⟩
  | .call => do
    let name ← signature tokens
    modify fun d ↦ d.setProcedure block name
  | _ => pure ()
  modify Draft.countCommand

/-- Follows a command. -/
def command (embed : Embed) (target : TargetKind) (line : Nat) (c : Command)
    (tokens raw : List String) : Build Unit := do
  match c.kind with
  | .finish => closeBlock line
  | .otherwise => enterElse line
  | .declare => declare line c.name tokens
  | kind =>
    if !c.isAvailableOn target then
      fail line (.notOnStage c.name)
    else if kind.isExpression then
      fail line (.expressionAsStatement c.name)
    else
      let nested := !(← get).frames.isEmpty
      match kind with
      | .define => if nested then fail line .nestedDefinition else define tokens
      | .hat =>
        if nested then fail line .nestedScript else statement embed line c tokens raw
      | _ => do
        modify Draft.ensureScript
        statement embed line c tokens raw

/-- The fault of a line whose first word is no command. -/
def unknownWord (catalog : Catalog) (word : String) : Fault :=
  let text := Call.dropMarker word
  let named :=
    if Text.startsWith word "@" || Call.isShaped text then
      match Call.parse text with
      | .ok call => (catalog.resolve? call.name).filter (·.kind.isExpression)
      | .error _ => none
    else none
  match named with
  | some command => .expressionAsStatement command.name
  | none => .unknownCommand word

/-- Reads one line. Blank lines and lines that start with a number sign say nothing. -/
def line (catalog : Catalog) (target : TargetKind) (source : SourceLine) : Build Unit := do
  let text := Text.trim source.text
  if text.isEmpty || Text.startsWith text "#" then
    return ()
  match Token.splitLine text with
  | [] => return ()
  | first :: raw =>
    let word := Token.unquote first
    match catalog.resolve? word with
    | none => fail source.line (unknownWord catalog word)
    | some c =>
      let embed := expression catalog target source.line (catalog.nestingBound text.length)
      command embed target source.line c (raw.map Token.unquote) raw

/-- Reads lines, after which all nesting blocks have to be closed. -/
def lines (catalog : Catalog) (target : TargetKind) (sources : List SourceLine) : Build Unit := do
  sources.forM (line catalog target)
  match (← get).frames with
  | frame :: _ => fail frame.line (.unclosedBlock frame.command)
  | [] => pure ()

end Build

/-! ### Targets -/

/-- A finished target with what else is known of it. -/
structure TargetBuild where
  /-- The target. -/
  target : Target
  /-- The warnings in the order of the lines. -/
  warnings : List Warning
  /-- The extensions in use. -/
  extensions : Dict Unit
  /-- The number of commands that made a block. -/
  commandCount : Nat
  /-- The number of blocks. -/
  blockCount : Nat
  /-- The symbols declared and seen. -/
  symbols : Symbols
deriving DecidableEq, Repr

/-- The target that a draft describes. -/
def Draft.finish (d : Draft) (kind : TargetKind) (name : String) : TargetBuild where
  target := {
    kind
    name
    blocks := d.blocks
    vars := d.symbols.declaredVariables
    lists := d.symbols.declared .lists
    broadcasts := d.symbols.declared .broadcasts }
  warnings := d.warnings
  extensions := d.extensions
  commandCount := d.commandCount
  blockCount := d.blocks.size
  symbols := d.symbols

namespace Script

/-- Runs work on a draft: what came of it, and the draft after it. -/
def run {α : Type} (work : Build α) (d : Draft) : Except SourceError α × Draft :=
  match EStateM.run work d with
  | .ok a d => (.ok a, d)
  | .error e d => (.error e, d)

/-- Makes the draft of a target from its lines. -/
def draft (catalog : Catalog) (kind : TargetKind) (sources : List SourceLine) (start : Draft) :
    Except SourceError Draft :=
  match EStateM.run (Build.lines catalog kind sources) start with
  | .ok _ d => .ok d
  | .error e _ => .error e

/-- Makes a single target from its lines. -/
def build (catalog : Catalog) (kind : TargetKind) (sources : List SourceLine) :
    Except SourceError TargetBuild := do
  let d ← draft catalog kind sources {}
  return d.finish kind (match kind with
    | .stage => "Stage"
    | .sprite => Header.defaultSprite)

end Script

end BlockScript

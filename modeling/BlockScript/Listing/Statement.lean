import BlockScript.Listing.Expression

/-!
# Writing scripts

A chain of blocks is written line by line, each nesting block with its sub-chains indented below
it. A block that no command writes becomes a comment.
-/

namespace BlockScript.Listing

/-- One step of indentation. -/
def indentation : String := "  "

/-- A line at some depth. -/
def indent (depth : Nat) (text : String) : String :=
  Text.replicate depth indentation ++ text

/-- Writes the chain from a block on, at some depth. -/
abbrev SpeakChain := Option BlockId → Nat → Writer (List String)

/-- The signature of the procedure that a block defines. -/
def definedSignature (target : Target) (block : Block) : String :=
  match ((((block.inputs.find? "custom_block").bind Slot.shadow?).bind
    target.blocks.find?).bind Block.procedure) with
  | some procedure => Text.orElse procedure.signature SymbolKind.procedures.fallbackName
  | none => SymbolKind.procedures.fallbackName

/-- The signature of the procedure that a block calls. -/
def calledSignature (block : Block) : String :=
  match block.procedure with
  | some procedure => Text.nameOr procedure.signature SymbolKind.procedures.fallbackName
  | none => SymbolKind.procedures.fallbackName

/-- The command that writes a block as a line. A conditional with two branches is written like
one with a single branch. -/
def headerCommand? (catalog : Catalog) (block : Block) : Option Command :=
  (if block.opcode == Opcode.ifElse then catalog.commandFor? Opcode.ifThen .nesting
    else catalog.commandFor? block.opcode .stack).filter (!·.kind.isExpression)

/-- The sub-chains of a nesting block. -/
def stackNames (catalog : Catalog) (header : Command) (block : Block) : List String :=
  ((catalog.commandFor? block.opcode .nesting).getD header).stackNames

/-- Writes the sub-chains of a block, with the word for else between them. -/
def branches (catalog : Catalog) (speakChain : SpeakChain) (block : Block) (depth : Nat) :
    List String → Writer (List String)
  | [] => return []
  | [name] => speakChain ((block.inputs.find? name).bind Slot.connected?) (depth + 1)
  | name :: rest => do
    let body ← speakChain ((block.inputs.find? name).bind Slot.connected?) (depth + 1)
    let others ← branches catalog speakChain block depth rest
    return body ++ indent depth ((catalog.keyword? .otherwise).getD "else") :: others

/-- Writes an entered block as a line, with the lines below it. -/
def statement (catalog : Catalog) (target : Target) (speak : Speak) (speakChain : SpeakChain)
    (block : Block) (depth : Nat) : Writer (List String) := do
  if block.opcode == Opcode.definition then
    return [indent depth ("define " ++ definedSignature target block)]
  else if block.opcode == Opcode.call then
    return [indent depth ("call " ++ calledSignature block)]
  else match headerCommand? catalog block with
    | none =>
      remark (.unsupportedOpcode block.opcode)
      return [indent depth ("# unsupported opcode: " ++ block.opcode)]
    | some command =>
      let args ← arguments target speak .line command block
      let header := indent depth (commandLine command.name args)
      if command.kind != .nesting then
        return [header]
      else
        let body ← branches catalog speakChain block depth (stackNames catalog command block)
        return header :: body ++ [indent depth ((catalog.keyword? .finish).getD "end")]

/-- What is written where a chain comes back to a block. -/
def cycleLine (depth : Nat) (id : BlockId) : String :=
  indent depth ("# warning: cyclic block chain at " ++ id)

/-- Writes a chain. No more than `bound` blocks are left to enter, so at zero there is none. -/
def chain (catalog : Catalog) (target : Target) : Nat → SpeakChain
  | _, none, _ => return []
  | 0, some id, depth => do
    match ← enter target id with
    | .again => return [cycleLine depth id]
    | _ => return []
  | bound + 1, some id, depth => do
    match ← enter target id with
    | .missing => return []
    | .again => return [cycleLine depth id]
    | .first block =>
      let lines ← statement catalog target (expression catalog target bound)
        (chain catalog target bound) block depth
      return lines ++ (← chain catalog target bound block.next depth)

end BlockScript.Listing

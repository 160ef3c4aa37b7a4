import BlockScript.Catalog.Basic
import BlockScript.Diagnostic
import BlockScript.Listing.Words
import BlockScript.Script.Arguments

/-!
# Writing expressions

The blocks of a target are written in one walk over the graph. The graph need not be a forest:
blocks may be shared, missing or chained in a circle. So the walk keeps a record of the blocks it
has entered (`Walk.visited`), enters no block twice, and remarks on each attempt to do so
(`Listing.enter`). Since every step down enters a block, the number of blocks bounds the depth of
the walk.
-/

namespace BlockScript.Listing

/-! ### The walk -/

/-- What a walk over a target has seen. -/
structure Walk where
  /-- The blocks entered, in order. -/
  visited : List BlockId := []
  /-- The remarks made, in order. -/
  remarks : List Remark := []
deriving DecidableEq, Repr

/-- Writing a part of a target. -/
abbrev Writer := StateM Walk

/-- What happens at the door of a block. -/
inductive Visit where
  /-- There is no such block. -/
  | missing
  /-- The block was entered before. -/
  | again
  /-- The block is entered. -/
  | first (block : Block)
deriving DecidableEq, Repr

/-- Adds a remark. -/
def remark (r : Remark) : Writer Unit :=
  modify fun w ↦ { w with remarks := w.remarks ++ [r] }

/-- Tries to enter a block. -/
def enter (target : Target) (id : BlockId) : Writer Visit := do
  match target.blocks.find? id with
  | none => return .missing
  | some block =>
    if (← get).visited.contains id then
      remark (.cyclicChain id)
      return .again
    else
      modify fun w ↦ { w with visited := w.visited ++ [id] }
      return .first block

/-! ### Slots -/

/-- Where a slot is written: on a line, where a mark tells an expression from a word, or between
the parentheses of a call. -/
inductive Site where
  | line
  | call
deriving DecidableEq, Repr

/-- Writes the expression of a block; nothing is written for a block that cannot be entered. -/
abbrev Speak := BlockId → Writer String

/-- The expression that computes the value of a slot, or nothing. -/
def computed (speak : Speak) (slot : Option Slot) : Writer String :=
  match slot.bind Slot.connected? with
  | some id => speak id
  | none => return ""

/-- The constant of a slot, or the fallback where it is empty. -/
def constant (slot : Option Slot) (fallback : String) : String :=
  match slot.bind Slot.literal? with
  | some value => Text.orElse value.text fallback
  | none => fallback

/-- An expression behind its mark. -/
def marked (expression : String) : String :=
  "@" ++ expression

/-- The text that the menu of a slot shows, or nothing. -/
def menuChoice (target : Target) (slot : Slot) : String :=
  match (slot.shadow?.bind target.blocks.find?).bind fun menu ↦ menu.fields.values.head? with
  | some field => field.text
  | none => ""

/-- Writes the slot of a menu. -/
def menuText (target : Target) (speak : Speak) (slot : Option Slot) (fallback : String) :
    Writer String := do
  match slot with
  | none => return Token.format fallback
  | some slot =>
    let expression ←
      match slot with
      | .covered id _ => speak id
      | _ => pure ""
    if !expression.isEmpty then
      return marked expression
    return Token.format (Text.orElse (menuChoice target slot) (constant (some slot) fallback))

/-- The constant of a slot of some kind. -/
def constantText (kind : SlotKind) (text fallback : String) : String :=
  if kind.isNumeric then numeric text fallback
  else if kind = .color then
    if isHexColor text then text else Text.orElse fallback "#ff0000"
  else Token.format text

/-- Writes an input of a block. Text slots take an expression only behind its mark. -/
def inputText (target : Target) (speak : Speak) (site : Site) (block : Block)
    (spec : InputSpec) : Writer String := do
  let slot := block.inputs.find? spec.name
  let fallback := spec.defaultText
  match spec.kind with
  | .menu => menuText target speak slot fallback
  | .boolean =>
    let expression ← computed speak slot
    return Text.orElse expression (Text.orElse fallback "false")
  | kind =>
    let expression ← computed speak slot
    if expression.isEmpty then
      return constantText kind (constant slot fallback) fallback
    else if site = .call && kind != .text then
      return expression
    else
      return marked expression

/-- The text of a field of a block, as a token. -/
def fieldText (block : Block) (spec : FieldSpec) : String :=
  Token.format ((block.fieldText? spec.name).getD (spec.default?.getD ""))

/-- Puts a field at its position. -/
def putField (block : Block) (args : List (Nat × String)) (spec : FieldSpec) :
    List (Nat × String) :=
  match spec.source.position? with
  | some i => putAt i (fieldText block spec) args
  | none => args

/-- Writes the arguments of a command: each field and input at its position. -/
def arguments (target : Target) (speak : Speak) (site : Site) (command : Command)
    (block : Block) : Writer (List String) := do
  let fields := command.fields.foldl (putField block) []
  let args ← command.inputs.foldlM (fun args spec ↦
    match spec.source.position? with
    | some i => return putAt i (← inputText target speak site block spec) args
    | none => return args) fields
  return argumentTexts args

/-! ### Expressions -/

/-- Writes an operand of a comparison. -/
def operand (speak : Speak) (slot : Option Slot) : Writer String := do
  let expression ← computed speak slot
  if !expression.isEmpty then
    return expression
  match slot.bind Slot.literal? with
  | some value => return Token.format value.text
  | none => return "0"

/-- Writes a truth value inside a condition. -/
def truthOperand (speak : Speak) (slot : Option Slot) : Writer String := do
  return Text.orElse (← computed speak slot) "false"

/-- Writes a comparison. -/
def comparison (speak : Speak) (symbol : String) (block : Block) : Writer String := do
  let left ← operand speak (block.inputs.find? "OPERAND1")
  let right ← operand speak (block.inputs.find? "OPERAND2")
  return Text.trim (left ++ " " ++ symbol ++ " " ++ right)

/-- Writes a connective of two conditions. -/
def connective (speak : Speak) (word : String) (block : Block) : Writer String := do
  let left ← truthOperand speak (block.inputs.find? "OPERAND1")
  let right ← truthOperand speak (block.inputs.find? "OPERAND2")
  return word ++ "(" ++ left ++ ", " ++ right ++ ")"

/-- The name of the argument that a block gives the value of. -/
def argumentName (block : Block) : String :=
  Token.format (Text.nameOr ((block.fieldText? "VALUE").getD "") "input")

/-- Writes a block that the catalog has an expression for. -/
def callText (catalog : Catalog) (target : Target) (speak : Speak) (block : Block) :
    Writer String := do
  match catalog.expressionFor? block.opcode with
  | none =>
    remark (.unknownReporter block.opcode)
    return "unknown(" ++ Token.format block.opcode ++ ")"
  | some command =>
    let args ← arguments target speak .call command block
    return command.name ++ "(" ++ Text.join ", " args ++ ")"

/-- Writes an entered block whose inner expressions are written by `speak`. -/
def blockExpression (catalog : Catalog) (target : Target) (speak : Speak) (block : Block) :
    Writer String :=
  if block.opcode == Opcode.greater then comparison speak ">" block
  else if block.opcode == Opcode.less then comparison speak "<" block
  else if block.opcode == Opcode.equals then comparison speak "=" block
  else if block.opcode == Opcode.and then connective speak "and" block
  else if block.opcode == Opcode.or then connective speak "or" block
  else if block.opcode == Opcode.not then do
    return "not(" ++ (← truthOperand speak (block.inputs.find? "OPERAND")) ++ ")"
  else if block.opcode == Opcode.argument then return "arg(" ++ argumentName block ++ ")"
  else if block.opcode == Opcode.booleanArgument then
    return "arg_bool(" ++ argumentName block ++ ")"
  else callText catalog target speak block

/-- Writes the expression of a block. No more than `bound` blocks are left to enter, so at zero
there is none. -/
def expression (catalog : Catalog) (target : Target) : Nat → Speak
  | 0 => fun id ↦ do
    let _ ← enter target id
    return ""
  | bound + 1 => fun id ↦ do
    match ← enter target id with
    | .first block => blockExpression catalog target (expression catalog target bound) block
    | _ => return ""

end BlockScript.Listing

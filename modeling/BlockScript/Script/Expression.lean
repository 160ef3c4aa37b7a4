import BlockScript.Script.Arguments

/-!
# Expressions

Making the blocks of the expressions in a line. An expression is a call whose arguments may hold
further expressions, so the parts below take the maker of inner expressions as an argument
(`Embed`), and `Build.expression` closes the circle by recursion on a bound for the nesting. The
texts of the arguments of a call are shorter than the call, so the length of the line bounds the
nesting of what is written; the defaults of a catalog can be expressions as well, and each of
them can be met once more on the way down (`Catalog.nestingBound`).
-/

namespace BlockScript

/-- Makes the block of an expression for a slot of the block `owner`, which expects a truth
value or not. -/
abbrev Embed := (text : String) → (owner : BlockId) → (condition : Bool) → Build BlockId

namespace Build

/-! ### Conditions -/

/-- Fills an operand of a comparison. -/
def operand (embed : Embed) (block : BlockId) (input text : String) : Build Unit := do
  let slot ←
    if Call.isShaped text || Text.startsWith text "@" then
      Slot.block <$> embed (Call.dropMarker text) block false
    else
      pure (.literal (match Number.parse? text with
        | some n => ⟨.number, Number.format n⟩
        | none => .ofText (Token.unquote text)))
  modify fun d ↦ d.setInput block input slot

/-- Makes the block of a comparison with one of the three signs that have a block. -/
def comparison (embed : Embed) (opcode left right : String) (owner : BlockId) : Build BlockId := do
  let block ← create opcode (.value owner)
  operand embed block "OPERAND1" left
  operand embed block "OPERAND2" right
  return block

/-- Makes the block that negates a condition. -/
def negation (inner owner : BlockId) : Build BlockId := do
  let block ← create Opcode.not (.value owner)
  modify fun d ↦ (d.setParent inner block).setInput block "OPERAND" (.block inner)
  return block

/-- Makes the blocks of a comparison. The signs without a block of their own negate the opposite
comparison. -/
def comparisonOf (embed : Embed) (c : Comparison) (owner : BlockId) : Build BlockId :=
  match c.relation with
  | .greater => comparison embed Opcode.greater c.left c.right owner
  | .less => comparison embed Opcode.less c.left c.right owner
  | .equal => comparison embed Opcode.equals c.left c.right owner
  | .sameAs => comparison embed Opcode.equals c.left c.right owner
  | .atLeast => do negation (← comparison embed Opcode.less c.left c.right owner) owner
  | .atMost => do negation (← comparison embed Opcode.greater c.left c.right owner) owner
  | .notEqual => do negation (← comparison embed Opcode.equals c.left c.right owner) owner

/-- Makes the comparison that stands for a truth value: one equals one, or zero does. -/
def truthValue (value : Bool) (owner : BlockId) : Build BlockId := do
  let block ← create Opcode.equals (.value owner)
  modify fun d ↦
    (d.setInput block "OPERAND1" (.literal (.ofText (if value then "1" else "0")))).setInput
      block "OPERAND2" (.literal (.ofText "1"))
  return block

/-- Makes the block of a condition: an expression, a comparison or a truth value. Anything else
counts as false. -/
def condition (embed : Embed) (line : Nat) (command raw : String) (owner : BlockId) :
    Build BlockId := do
  let value := Text.trim raw
  if Text.startsWith value "@" || Call.isShaped value then
    embed (Call.dropMarker value) owner true
  else match Comparison.split? value with
    | some c => comparisonOf embed c owner
    | none =>
      let word := Text.lower (Token.unquote value)
      if word == "true" then truthValue true owner
      else if word == "false" then truthValue false owner
      else do
        warn line (.expectedCondition command)
        truthValue false owner

/-! ### Inputs -/

/-- The content of a menu input. -/
def menuSlot (embed : Embed) (line : Nat) (spec : InputSpec) (block : BlockId) (raw : String) :
    Build Slot := do
  let fallback ← modifyGet fun d ↦
    d.menuFallback line spec block (if spec.isExpression raw then spec.defaultText else raw)
  if spec.isExpression raw then
    return .covered (← embed (Call.dropMarker raw) block false) fallback
  else
    return match fallback with
      | .shadow menu => .shadow menu
      | .literal value => .literal value

/-- The content of an input that holds a text, a number or a color. -/
def literalSlot (embed : Embed) (line : Nat) (command : String) (spec : InputSpec)
    (block : BlockId) (raw : String) : Build Slot := do
  if spec.isExpression raw then
    return .covered (← embed (Call.dropMarker raw) block false)
      (.literal (spec.kind.literal spec.defaultText))
  else
    let (text, remark) := spec.literalText command raw
    modify fun d ↦ d.warnIf line remark
    return .literal (spec.kind.literal text)

/-- Fills one input of a block. -/
def bindInput (embed : Embed) (line : Nat) (command : String) (args : Arguments)
    (block : BlockId) (spec : InputSpec) : Build Unit := do
  let raw ← modifyGet fun d ↦ d.inputText line command spec args
  let slot ←
    match spec.kind with
    | .menu => menuSlot embed line spec block raw
    | .boolean => Slot.block <$> condition embed line command raw block
    | _ => literalSlot embed line command spec block raw
  modify fun d ↦ d.setInput block spec.name slot

/-- Fills the fields and inputs of a command's block. -/
def bindSlots (embed : Embed) (line : Nat) (command : Command) (args : Arguments)
    (block : BlockId) : Build Unit := do
  modify fun d ↦ d.bindFields line command.name command.fields args block
  command.inputs.forM (bindInput embed line command.name args block)
  modify fun d ↦ d.useExtension command.extension?

/-! ### Calls -/

/-- The command of a call, if it is an expression that the target can use. -/
def expressionCommand (catalog : Catalog) (target : TargetKind) (name : String) :
    Except Fault Command :=
  match catalog.resolve? name with
  | none => .error (.unknownExpression name)
  | some command =>
    if !command.kind.isExpression then .error (.statementAsExpression name)
    else if !command.isAvailableOn target then .error (.unavailableExpression name target)
    else .ok command

/-- Makes the block of a call whose inner expressions are made by `embed`. -/
def callBlock (embed : Embed) (catalog : Catalog) (target : TargetKind) (line : Nat) : Embed :=
  fun text owner condition ↦
    match Call.parse text with
    | .error value => fail line (.malformedExpression value)
    | .ok call =>
      match expressionCommand catalog target call.name with
      | .error fault => fail line fault
      | .ok command => do
        if condition && command.kind != .boolean then
          warn line (.notBoolean call.name)
        let block ← create command.opcode (.value owner)
        bindSlots embed line command (.ofCall call.args) block
        return block

/-- Makes the blocks of an expression whose calls nest less than `bound` deep. -/
def expression (catalog : Catalog) (target : TargetKind) (line : Nat) : Nat → Embed
  | 0 => fun text _ _ ↦ fail line (.endlessDefault text)
  | bound + 1 => callBlock (expression catalog target line bound) catalog target line

end Build

/-- A bound for the nesting of expressions in a text of the given length: each step down is to a
shorter text or to one of the defaults of the catalog, and a default that is met again inside
itself never ends. -/
def Catalog.nestingBound (catalog : Catalog) (length : Nat) : Nat :=
  length + 1 + total (catalog.commands.values.map fun command ↦
    total (command.inputs.map fun spec ↦ spec.defaultText.length + 1))

end BlockScript

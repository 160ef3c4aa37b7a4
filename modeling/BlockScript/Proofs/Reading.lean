import BlockScript.Script.Line
import BlockScript.Proofs.Tree

/-!
# Reading without making blocks

What the expressions in a line say, as trees. The functions here follow the ones that make blocks
(`Build.expression` and its parts) step by step, but they neither draw identifiers nor declare
symbols, and they make no remarks: the tree of a text depends on the text and the catalog alone.
-/

namespace BlockScript

/-- What one slot holds. -/
structure Content (α : Type) where
  /-- The constant. -/
  constant : Option Literal := none
  /-- The computed value. -/
  value : Chain α := .nil
  /-- The shadow. -/
  shadow : Chain α := .nil

namespace Content

variable {α : Type}

/-- The content under its name. -/
def slot (c : Content α) (input : String) : Slots α :=
  .cons input c.constant c.value c.shadow .nil

/-- The content without its tags. -/
def erase (c : Content α) : Content Unit :=
  ⟨c.constant, c.value.erase, c.shadow.erase⟩

/-- The tags of the content, those of the shadow first. -/
def tags (c : Content α) : List α := c.shadow.tags ++ c.value.tags

/-- The names the content asks for. -/
def asked (c : Content α) : List Request := c.shadow.asked ++ c.value.asked

/-- Forgetting tags commutes with putting the content under a name. -/
@[simp]
theorem erase_slot (c : Content α) (input : String) : (c.slot input).erase = c.erase.slot input :=
  rfl

/-- One slot has the tags of its content. -/
@[simp]
theorem tags_slot (c : Content α) (input : String) : (c.slot input).tags = c.tags := by
  simp [slot, tags, Slots.tags]

/-- One slot asks for what its content asks for. -/
@[simp]
theorem asked_slot (c : Content α) (input : String) : (c.slot input).asked = c.asked := by
  simp [slot, asked, Slots.asked]

/-- A single slot has the one name it was given. -/
@[simp]
theorem names_slot (c : Content α) (input : String) : (c.slot input).names = [input] := rfl

/-- The names asked for do not depend on tags. -/
@[simp]
theorem asked_erase (c : Content α) : c.erase.asked = c.asked := by
  simp [asked, erase, Chain.asked_erase]

end Content

namespace Reading

/-- What a text or line says, or what is wrong with it. -/
abbrev Result := Except SourceError

/-- Two steps succeed together when the first gives what the second succeeds with. -/
theorem bind_eq_ok {β γ : Type} {x : Result β} {f : β → Result γ} {c : γ} :
    (x >>= f) = .ok c ↔ ∃ b, x = .ok b ∧ f b = .ok c := by
  cases x with
  | error e => simp [bind, Except.bind]
  | ok b => simp [bind, Except.bind]

/-- A mapped run succeeds when the run does, with the mapped value. -/
theorem map_eq_ok {β γ : Type} {x : Result β} {f : β → γ} {c : γ} :
    f <$> x = .ok c ↔ ∃ b, x = .ok b ∧ f b = c := by
  cases x with
  | error e => simp [Functor.map, Except.map]
  | ok b => simp [Functor.map, Except.map]

/-- Reads the expression in a text. -/
abbrev Reader := (text : String) → Result Tree

/-- Ends the work with a fault. -/
def fail {α : Type} (line : Nat) (fault : Fault) : Result α :=
  .error ⟨line, fault⟩

/-- A guarded run succeeds when the guard lets it pass and the run succeeds. -/
theorem guard_eq_ok {β : Type} {stop : Bool} {line : Nat} {fault : Fault} {x : Result β} {b : β} :
    (if stop then fail line fault else x) = .ok b ↔ stop = false ∧ x = .ok b := by
  cases stop <;> simp [fail]

/-- A single block. -/
def block (node : Node) (slots : Slots Unit) : Tree :=
  .cons () node slots .nil

/-! ### Conditions -/

/-- The constant of an operand that is no expression. -/
def operandLiteral (text : String) : Literal :=
  match Number.parse? text with
  | some n => ⟨.number, Number.format n⟩
  | none => .ofText (Token.unquote text)

/-- Whether an operand is an expression. -/
def isOperandExpression (text : String) : Bool :=
  Call.isShaped text || Text.startsWith text "@"

/-- Reads an operand of a comparison. -/
def operand (read : Reader) (text : String) : Result (Content Unit) :=
  if isOperandExpression text then do
    return { value := ← read (Call.dropMarker text) }
  else
    return { constant := some (operandLiteral text) }

/-- Reads a comparison with one of the three signs that have a block. -/
def comparison (read : Reader) (opcode left right : String) : Result Tree := do
  let first ← operand read left
  let second ← operand read right
  return block { opcode } ((first.slot "OPERAND1").append (second.slot "OPERAND2"))

/-- The negation of a condition. -/
def negation (inner : Tree) : Tree :=
  block { opcode := Opcode.not } (Content.slot { value := inner } "OPERAND")

/-- Reads a comparison. -/
def comparisonOf (read : Reader) (c : Comparison) : Result Tree :=
  match c.relation with
  | .greater => comparison read Opcode.greater c.left c.right
  | .less => comparison read Opcode.less c.left c.right
  | .equal => comparison read Opcode.equals c.left c.right
  | .sameAs => comparison read Opcode.equals c.left c.right
  | .atLeast => negation <$> comparison read Opcode.less c.left c.right
  | .atMost => negation <$> comparison read Opcode.greater c.left c.right
  | .notEqual => negation <$> comparison read Opcode.equals c.left c.right

/-- The comparison that stands for a truth value. -/
def truthValue (value : Bool) : Tree :=
  block { opcode := Opcode.equals }
    ((Content.slot { constant := some (.ofText (if value then "1" else "0")) } "OPERAND1").append
      (Content.slot { constant := some (.ofText "1") } "OPERAND2"))

/-- Reads a condition. -/
def condition (read : Reader) (raw : String) : Result Tree :=
  let value := Text.trim raw
  if Text.startsWith value "@" || Call.isShaped value then read (Call.dropMarker value)
  else match Comparison.split? value with
    | some c => comparisonOf read c
    | none => return truthValue (Text.lower (Token.unquote value) == "true")

/-! ### Fields -/

/-- The field of a text, where it names a symbol with the fallback for an empty name. -/
def fieldFor (name : String) (symbols : Option SymbolKind) (text fallback : String) : FieldText :=
  ⟨name, symbols, if symbols.isSome then Text.nameOr text fallback else text⟩

/-- The text of a field after its default, upper case and options. -/
def fieldText (spec : FieldSpec) (raw : String) : String :=
  let raw := if raw.isEmpty then spec.default?.getD raw else raw
  let value := if spec.uppercase then Text.upper raw else raw
  if !spec.options.isEmpty && !spec.options.contains value then spec.default?.getD "" else value

/-- Reads one field. -/
def field (args : Arguments) (spec : FieldSpec) : FieldText :=
  fieldFor spec.name spec.symbols (fieldText spec (args.read spec.source))
    (spec.default?.getD "item")

/-! ### Inputs -/

/-- The text of an input after its default. -/
def inputText (spec : InputSpec) (args : Arguments) : String :=
  let raw := if spec.kind = .boolean then args.readCondition spec.source else args.read spec.source
  if raw.isEmpty then spec.default?.getD raw else raw

/-- The content of a menu that shows a text. -/
def menuFallback (spec : InputSpec) (raw : String) : Content Unit :=
  let text := (spec.menuText raw).1
  match spec.menuOpcode with
  | some opcode =>
    { shadow := block
        { opcode,
          fields := [fieldFor (spec.menuField.getD spec.name) spec.symbols text
            (spec.default?.getD "item")] }
        .nil }
  | none => { constant := some (.ofText text) }

/-- Reads a menu input. -/
def menuSlot (read : Reader) (spec : InputSpec) (raw : String) : Result (Content Unit) :=
  if spec.isExpression raw then do
    return { menuFallback spec spec.defaultText with value := ← read (Call.dropMarker raw) }
  else
    return menuFallback spec raw

/-- Reads an input that holds a text, a number or a color. -/
def literalSlot (read : Reader) (command : String) (spec : InputSpec) (raw : String) :
    Result (Content Unit) :=
  if spec.isExpression raw then do
    return {
      constant := some (spec.kind.literal spec.defaultText)
      value := ← read (Call.dropMarker raw) }
  else
    return { constant := some (spec.kind.literal (spec.literalText command raw).1) }

/-- Reads one input. -/
def input (read : Reader) (command : String) (args : Arguments) (spec : InputSpec) :
    Result (Content Unit) :=
  match spec.kind with
  | .menu => menuSlot read spec (inputText spec args)
  | .boolean => (fun value ↦ { value }) <$> condition read (inputText spec args)
  | _ => literalSlot read command spec (inputText spec args)

/-- Reads the inputs of a command. -/
def inputs (read : Reader) (command : String) (args : Arguments) :
    List InputSpec → Result (Slots Unit)
  | [] => return .nil
  | spec :: specs => do
    let content ← input read command args spec
    let rest ← inputs read command args specs
    return (content.slot spec.name).append rest

/-- Reads the block of a command. -/
def commandBlock (read : Reader) (command : Command) (args : Arguments) : Result Tree := do
  let slots ← inputs read command.name args command.inputs
  return block { opcode := command.opcode, fields := command.fields.map (field args) } slots

/-! ### Calls -/

/-- Reads a call whose inner expressions are read by `read`. -/
def call (read : Reader) (catalog : Catalog) (target : TargetKind) (line : Nat) : Reader :=
  fun text ↦
    match Call.parse text with
    | .error value => fail line (.malformedExpression value)
    | .ok call =>
      match Build.expressionCommand catalog target call.name with
      | .error fault => fail line fault
      | .ok command => commandBlock read command (.ofCall call.args)

/-- Reads an expression whose calls nest less than `bound` deep. -/
def expression (catalog : Catalog) (target : TargetKind) (line : Nat) : Nat → Reader
  | 0 => fun text ↦ fail line (.endlessDefault text)
  | bound + 1 => call (expression catalog target line bound) catalog target line

end Reading

end BlockScript

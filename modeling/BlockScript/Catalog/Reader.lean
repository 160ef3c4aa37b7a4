import BlockScript.Catalog.Basic
import BlockScript.Json.Parser
import BlockScript.Json.Printer

/-!
# Reading a catalog

A catalog can be given as a JSON document with an object of commands and an object of aliases.
Only what would leave a command without meaning is refused; a setting of the wrong type counts
as not given.
-/

namespace BlockScript

/-- Why a document is no catalog. -/
inductive CatalogError where
  /-- The text is no JSON document. -/
  | malformed
  /-- There is no object of commands. -/
  | missingCommands
  /-- A command is not described by an object. -/
  | commandNotObject (command : String)
  /-- The kind of a command is unknown. -/
  | unknownKind (command kind : String)
  /-- A field or input has no name. -/
  | namelessSlot (command : String)
  /-- A field or input names an unknown table of symbols. -/
  | unknownTable (command table : String)
  /-- An alias does not stand for a word. -/
  | aliasNotText (word : String)
deriving DecidableEq, Repr

/-- The wording of an error. -/
def CatalogError.message (e : CatalogError) : String :=
  "invalid command catalog: " ++ match e with
    | malformed => "malformed JSON"
    | missingCommands => "missing \"commands\" object"
    | commandNotObject command => s!"command '{command}' must be an object"
    | unknownKind command kind => s!"command '{command}' has unknown kind '{kind}'"
    | namelessSlot command => s!"a slot of '{command}' has no name"
    | unknownTable command table => s!"'{command}' references unknown registry '{table}'"
    | aliasNotText word => s!"alias '{word}' must map to a string"

namespace Catalog

/-- The text of a string, number or truth value. -/
def scalarText? : Json → Option String
  | .str s => some s
  | .num n => some n.text
  | .bool b => some (if b then "true" else "false")
  | _ => none

/-- The texts in an array; anything else is an empty list. -/
def textList (value : Option Json) : List String :=
  ((value.bind Json.asArr?).getD []).filterMap scalarText?

/-- Where a described slot takes its text from. -/
def sourceOf (raw : Json) : ArgumentSource :=
  match raw.get? "from" with
  | some (.str s) =>
    if s == "rest" then .rest (((raw.get? "start").bind Json.asNat?).getD 0) else .unbound
  | some value =>
    match value.asNat? with
    | some i => .index i
    | none => .unbound
  | none => .unbound

/-- The name of a described slot. -/
def slotName (command : String) (raw : Json) : Except CatalogError String :=
  match raw.getStr? "name" with
  | some name => .ok name
  | none => .error (.namelessSlot command)

/-- The table of symbols of a described slot. -/
def symbolsOf (command : String) (raw : Json) : Except CatalogError (Option SymbolKind) :=
  match raw.getStr? "registry" with
  | none => .ok none
  | some table =>
    match SymbolKind.parse? table with
    | some kind => .ok (some kind)
    | none => .error (.unknownTable command table)

/-- A described field. -/
def readField (command : String) (raw : Json) : Except CatalogError FieldSpec := do
  let name ← slotName command raw
  let symbols ← symbolsOf command raw
  return {
    name
    symbols
    source := sourceOf raw
    default? := (raw.get? "default").bind scalarText?
    options := textList (raw.get? "options")
    uppercase := (raw.getBool? "uppercase").getD false }

/-- A described input. -/
def readInput (command : String) (raw : Json) : Except CatalogError InputSpec := do
  let name ← slotName command raw
  let symbols ← symbolsOf command raw
  return {
    name
    symbols
    source := sourceOf raw
    kind := SlotKind.parse ((raw.getStr? "type").getD "number")
    default? := (raw.get? "default").bind scalarText?
    options := textList (raw.get? "options")
    uppercase := (raw.getBool? "uppercase").getD false
    menuOpcode := raw.getStr? "menuOpcode"
    menuField := raw.getStr? "menuField"
    allowExpression := (raw.getBool? "allowExpression").getD true }

/-- A described command. -/
def readCommand (name : String) (raw : Json) : Except CatalogError Command := do
  if raw.asObj?.isNone then
    throw (.commandNotObject name)
  let kindText := (raw.getStr? "kind").getD "stack"
  let some kind := CommandKind.parse? kindText | throw (.unknownKind name kindText)
  let fields ← ((raw.getArr? "fields").getD []).mapM (readField name)
  let inputs ← ((raw.getArr? "inputs").getD []).mapM (readInput name)
  return {
    name
    kind
    fields
    inputs
    opcode? := raw.getStr? "opcode"
    stackInputs := textList (raw.get? "stacks")
    extension? := raw.getStr? "extension"
    hidden := (raw.getBool? "hidden").getD false }

/-- A described alias. -/
def readAlias (entry : String × Json) : Except CatalogError (String × String) :=
  match entry.2.asStr? with
  | some word => .ok (entry.1, word)
  | none => .error (.aliasNotText entry.1)

/-- The catalog that a JSON value describes. -/
def ofJson (value : Json) : Except CatalogError Catalog := do
  let some described := value.getObj? "commands" | throw .missingCommands
  let commands ← described.mapM fun entry ↦ do
    return (entry.1, ← readCommand entry.1 entry.2)
  let aliases ← ((value.getObj? "aliases").getD []).mapM readAlias
  return ⟨Dict.ofList commands, Dict.ofList aliases⟩

/-- The catalog that a JSON text describes. -/
def parse (text : String) : Except CatalogError Catalog :=
  match Json.parse? text with
  | some value => ofJson value
  | none => .error .malformed

end Catalog

end BlockScript

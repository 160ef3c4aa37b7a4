import BlockScript.Symbols

/-!
# Command catalogs

A catalog says which commands scripts may use: the word of a command, the block it makes, and
where the arguments of a line or call go. It answers questions in both directions, from a word
to its command (`Catalog.resolve?`) and from a block back to the command that writes it
(`Catalog.commandFor?`, `Catalog.expressionFor?`).
-/

namespace BlockScript

/-- What a command does to the script it stands in. -/
inductive CommandKind where
  /-- Starts a script. -/
  | hat
  /-- Appends a block. -/
  | stack
  /-- Appends a block that holds further lines. -/
  | nesting
  /-- Goes on to the second branch of a conditional. -/
  | otherwise
  /-- Closes a nesting block or a script. -/
  | finish
  /-- Starts the definition of a procedure. -/
  | define
  /-- Calls a procedure. -/
  | call
  /-- Declares a symbol. -/
  | declare
  /-- Gives a value. -/
  | reporter
  /-- Gives a truth value. -/
  | boolean
deriving DecidableEq, Repr

namespace CommandKind

/-- The kind a catalog names. -/
def parse? (s : String) : Option CommandKind :=
  if s == "hat" then some hat
  else if s == "stack" || s == "cap" then some stack
  else if s == "c" then some nesting
  else if s == "else" then some otherwise
  else if s == "end" then some finish
  else if s == "define" then some define
  else if s == "call" then some call
  else if s == "meta" then some declare
  else if s == "reporter" then some reporter
  else if s == "boolean" then some boolean
  else none

/-- Whether a command of this kind stands inside another command. -/
def isExpression : CommandKind → Bool
  | reporter => true
  | boolean => true
  | _ => false

/-- Whether a command of this kind is part of the grammar of scripts on every target. -/
def isStructural : CommandKind → Bool
  | declare => true
  | finish => true
  | otherwise => true
  | define => true
  | call => true
  | _ => false

end CommandKind

/-- Where a slot takes its text from in a list of arguments. -/
inductive ArgumentSource where
  /-- One argument. -/
  | index (position : Nat)
  /-- All arguments from a position on. -/
  | rest (start : Nat)
  /-- None. -/
  | unbound
deriving DecidableEq, Repr

/-- The position at which a slot appears in a list of arguments. -/
def ArgumentSource.position? : ArgumentSource → Option Nat
  | index i => some i
  | rest start => some start
  | unbound => none

/-- What an input expects. -/
inductive SlotKind where
  | text
  | number
  | integer
  | angle
  | color
  | menu
  | boolean
deriving DecidableEq, Repr

namespace SlotKind

/-- The kind a catalog names; any other name means a number. -/
def parse (s : String) : SlotKind :=
  if s == "text" || s == "string" then text
  else if s == "integer" then integer
  else if s == "angle" then angle
  else if s == "color" then color
  else if s == "menu" then menu
  else if s == "boolean" then boolean
  else number

/-- Whether the slot holds a number. -/
def isNumeric : SlotKind → Bool
  | number => true
  | integer => true
  | angle => true
  | _ => false

end SlotKind

/-- A field of a command's block. -/
structure FieldSpec where
  /-- The name of the field. -/
  name : String
  /-- Where its text comes from. -/
  source : ArgumentSource := .unbound
  /-- The text when none is given. -/
  default? : Option String := none
  /-- The texts allowed; none means all. -/
  options : List String := []
  /-- Whether the text is put into upper case. -/
  uppercase : Bool := false
  /-- The table of symbols that the text names one of. -/
  symbols : Option SymbolKind := none
deriving DecidableEq, Repr

/-- An input of a command's block. -/
structure InputSpec where
  /-- The name of the input. -/
  name : String
  /-- Where its text comes from. -/
  source : ArgumentSource := .unbound
  /-- What it expects. -/
  kind : SlotKind := .number
  /-- The text when none is given. -/
  default? : Option String := none
  /-- The texts allowed in a menu; none means all. -/
  options : List String := []
  /-- Whether a menu text is put into upper case. -/
  uppercase : Bool := false
  /-- The table of symbols that a menu text names one of. -/
  symbols : Option SymbolKind := none
  /-- The shadow block of a menu. -/
  menuOpcode : Option String := none
  /-- The field of that shadow block, if not named like the input. -/
  menuField : Option String := none
  /-- Whether the slot may hold an expression. -/
  allowExpression : Bool := true
deriving DecidableEq, Repr

/-- The text of an input when none is given, or nothing. -/
def InputSpec.defaultText (spec : InputSpec) : String :=
  spec.default?.getD ""

/-- A command. -/
structure Command where
  /-- The word of the command. -/
  name : String
  /-- The operation code of its block. -/
  opcode? : Option String := none
  /-- What it does to a script. -/
  kind : CommandKind := .stack
  /-- The fields of its block. -/
  fields : List FieldSpec := []
  /-- The inputs of its block. -/
  inputs : List InputSpec := []
  /-- The inputs that hold further lines, if not the usual one. -/
  stackInputs : List String := []
  /-- The extension its block belongs to. -/
  extension? : Option String := none
  /-- Whether scripts are never written with it. -/
  hidden : Bool := false
deriving DecidableEq, Repr

/-! ### What the stage can do -/

/-- Beginnings of the operation codes that only sprites have. -/
def spriteOnlyFamilies : List String :=
  ["motion_", "pen_"]

/-- Further operation codes that only sprites have. -/
def spriteOnlyOpcodes : List String :=
  ["event_whenthisspriteclicked", "looks_say", "looks_sayforsecs", "looks_think",
    "looks_thinkforsecs", "looks_switchcostumeto", "looks_nextcostume", "looks_changeeffectby",
    "looks_seteffectto", "looks_cleargraphiceffects", "looks_show", "looks_hide",
    "looks_gotofrontback", "looks_goforwardbackwardlayers", "looks_changesizeby",
    "looks_setsizeto", "looks_costumenumbername", "looks_size", "sensing_touchingobject",
    "sensing_touchingcolor", "sensing_coloristouchingcolor", "sensing_distanceto",
    "control_start_as_clone", "control_create_clone_of", "control_delete_this_clone"]

/-- Whether the stage can hold a block. -/
def isStageCompatible (opcode : String) : Bool :=
  opcode.isEmpty ||
    (!spriteOnlyOpcodes.contains opcode && !spriteOnlyFamilies.any (Text.startsWith opcode))

namespace Command

/-- The operation code, or nothing. -/
def opcode (c : Command) : String := c.opcode?.getD ""

/-- The inputs that hold further lines. -/
def stackNames (c : Command) : List String :=
  if c.stackInputs.isEmpty then ["SUBSTACK"] else c.stackInputs

/-- Whether the command may be used on a target. -/
def isAvailableOn (c : Command) : TargetKind → Bool
  | .sprite => true
  | .stage => c.kind.isStructural || isStageCompatible c.opcode

end Command

/-- Commands by their words, and other words for some of them. -/
structure Catalog where
  /-- The commands. -/
  commands : Dict Command
  /-- Other words, each with the word it stands for. -/
  aliases : Dict String
deriving DecidableEq, Repr

namespace Catalog

/-- A command word in its normal form: lower case, with underscores for hyphens. -/
def normalize (word : String) : String :=
  String.ofList ((Chars.lower word.toList).map fun c ↦ if c == '-' then '_' else c)

/-- The number of commands. -/
def size (c : Catalog) : Nat := c.commands.size

/-- The command of a word in normal form, other words not counted. -/
def get? (c : Catalog) (name : String) : Option Command :=
  c.commands.find? name

/-- The command a word stands for. -/
def resolve? (c : Catalog) (word : String) : Option Command :=
  let name := normalize word
  match c.get? name with
  | some command => some command
  | none => (c.aliases.find? name).bind c.get?

/-- The visible commands that make a block, in the order of their words. -/
def visibleFor (c : Catalog) (opcode : String) : List Command :=
  c.commands.values.filter fun command ↦ command.opcode? == some opcode && !command.hidden

/-- The command that writes a block, one of the preferred kind if there is any. -/
def commandFor? (c : Catalog) (opcode : String) (preferred : CommandKind) : Option Command :=
  let candidates := c.visibleFor opcode
  (candidates.find? (·.kind == preferred)).or candidates.head?

/-- The command that writes a block as an expression. -/
def expressionFor? (c : Catalog) (opcode : String) : Option Command :=
  match c.commandFor? opcode .reporter with
  | none => none
  | some command =>
    if command.kind.isExpression then some command
    else (c.visibleFor opcode).find? (·.kind.isExpression)

/-- The word of the first visible command of a kind. -/
def keyword? (c : Catalog) (kind : CommandKind) : Option String :=
  (c.commands.values.find? fun command ↦ command.kind == kind && !command.hidden).map Command.name

end Catalog

end BlockScript

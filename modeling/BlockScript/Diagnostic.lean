import BlockScript.Graph.Block

/-!
# Errors and warnings

Whatever can be wrong with a source text is a *fault*, which ends the work, or a *remark*, which
does not. Both are values that say what was met; their wording is in `Fault.message` and
`Remark.message` alone. With the line they belong to they are a `SourceError` and a `Warning`,
and both are shown as a `Diagnostic`.
-/

namespace BlockScript

/-- How serious a diagnostic is. -/
inductive Severity where
  | warning
  | error
deriving DecidableEq, Repr

/-- A message for the reader of a source text. -/
structure Diagnostic where
  /-- How serious it is. -/
  severity : Severity
  /-- The line it speaks of, counted from one; zero is no line. -/
  line : Nat
  /-- What it says. -/
  message : String
  /-- The target it belongs to. -/
  scope : Option String := none
deriving DecidableEq, Repr

/-- A message with its line in front. -/
def atLine (line : Nat) (message : String) : String :=
  if line = 0 then message else s!"Line {line}: {message}"

/-- The text of a diagnostic. -/
def Diagnostic.render (d : Diagnostic) : String :=
  match d.scope with
  | some scope => s!"[{scope}] " ++ atLine d.line d.message
  | none => atLine d.line d.message

/-! ### Faults -/

/-- What makes a source text unusable. -/
inductive Fault where
  /-- A line in a section is not indented. -/
  | unindented (label : String)
  /-- A section is not closed. -/
  | unclosedSection (label : String)
  /-- A nesting block is not closed. -/
  | unclosedBlock (command : String)
  /-- The first word of a line is no command. -/
  | unknownCommand (word : String)
  /-- A line is an expression. -/
  | expressionAsStatement (command : String)
  /-- An end closes nothing. -/
  | strayEnd
  /-- A command is not available on the stage. -/
  | notOnStage (command : String)
  /-- A definition starts inside a nesting block. -/
  | nestedDefinition
  /-- A script starts inside a nesting block. -/
  | nestedScript
  /-- An else stands outside any block. -/
  | strayElse
  /-- A conditional has two elses. -/
  | repeatedElse
  /-- An else stands in a block that is no conditional. -/
  | misplacedElse
  /-- A declaring command declares nothing known. -/
  | unknownDeclaration (command : String)
  /-- An expression opens a parenthesis and does not end with one. -/
  | malformedExpression (text : String)
  /-- The name of an expression is no command. -/
  | unknownExpression (name : String)
  /-- The name of an expression is the command of a statement. -/
  | statementAsExpression (name : String)
  /-- An expression is not available on the target. -/
  | unavailableExpression (name : String) (target : TargetKind)
  /-- The default of a slot is an expression whose own slots default to it again. -/
  | endlessDefault (text : String)
deriving DecidableEq, Repr

/-- The wording of a fault. -/
def Fault.message : Fault → String
  | unindented label => s!"code inside {label} must be indented and closed by an outer \"end\"."
  | unclosedSection label => s!"missing closing \"end\" for {label} block."
  | unclosedBlock command => s!"missing \"end\" for \"{command}\" block."
  | unknownCommand word => s!"unknown command \"{word}\"."
  | expressionAsStatement command =>
    s!"\"{command}\" is a reporter/boolean expression. Use it inside another command input, " ++
      "for example var(score) or @var(score)."
  | strayEnd => "\"end\" has no matching block."
  | notOnStage command =>
    s!"\"{command}\" is not available on Stage. Move this line into a sprite_code section."
  | nestedDefinition => "close nested blocks before starting \"define\"."
  | nestedScript => "close nested blocks before starting a new script."
  | strayElse => "\"else\" has no matching \"if\" block."
  | repeatedElse => "\"else\" can only appear once in an \"if\" block."
  | misplacedElse => "\"else\" can only be used inside \"if\" or \"if_else\"."
  | unknownDeclaration command => s!"unsupported meta command \"{command}\"."
  | malformedExpression text => s!"Malformed expression \"{text}\"."
  | unknownExpression name => s!"unknown expression \"{name}\"."
  | statementAsExpression name => s!"\"{name}\" is not a reporter expression."
  | unavailableExpression name target =>
    s!"expression \"{name}\" is not available on " ++ target.label ++ "."
  | endlessDefault text => s!"the default expression \"{text}\" never ends."

/-- A fault with the line it was met on. -/
structure SourceError where
  /-- The line, counted from one. -/
  line : Nat
  /-- What was met. -/
  fault : Fault
deriving DecidableEq, Repr

/-- The diagnostic that shows an error. -/
def SourceError.diagnostic (e : SourceError) : Diagnostic :=
  ⟨.error, e.line, e.fault.message, none⟩

/-- The text of an error. -/
def SourceError.message (e : SourceError) : String :=
  atLine e.line e.fault.message

/-! ### Remarks -/

/-- What is worth telling about a source text or a project that can be used. -/
inductive Remark where
  /-- A field took its default. -/
  | defaultedField (command field value : String)
  /-- An input took its default. -/
  | defaultedInput (command input value : String)
  /-- A text is not among the options. -/
  | invalidOption (slot value fallback : String)
  /-- A color is malformed. -/
  | expectedColor (command input fallback : String)
  /-- An integer is malformed. -/
  | expectedInteger (command input fallback : String)
  /-- A number is malformed. -/
  | expectedNumber (command input fallback : String)
  /-- A condition is an expression without truth value. -/
  | notBoolean (name : String)
  /-- A condition is malformed. -/
  | expectedCondition (command : String)
  /-- A block was met for the second time. -/
  | cyclicChain (id : BlockId)
  /-- No command writes a block. -/
  | unsupportedOpcode (opcode : String)
  /-- No expression writes a block. -/
  | unknownReporter (opcode : String)
  /-- A sprite got the default costume. -/
  | defaultCostume (sprite reason : String)
deriving DecidableEq, Repr

/-- The wording of a remark. -/
def Remark.message : Remark → String
  | defaultedField command field value => s!"{command} defaulted field {field} to \"{value}\"."
  | defaultedInput command input value => s!"{command} defaulted input {input} to \"{value}\"."
  | invalidOption slot value fallback => s!"invalid {slot} \"{value}\", using \"{fallback}\"."
  | expectedColor command input fallback =>
    s!"{command} expected color like #RRGGBB for {input}, using {fallback}."
  | expectedInteger command input fallback =>
    s!"{command} expected integer for {input}, using {fallback}."
  | expectedNumber command input fallback =>
    s!"{command} expected number for {input}, using {fallback}."
  | notBoolean name => s!"expression \"{name}\" is not boolean."
  | expectedCondition command =>
    s!"{command} expected boolean expression for condition; using false."
  | cyclicChain id => s!"cyclic block chain at {id}; branch truncated."
  | unsupportedOpcode opcode => s!"unsupported opcode \"{opcode}\" skipped."
  | unknownReporter opcode => s!"unknown reporter opcode \"{opcode}\"."
  | defaultCostume sprite reason =>
    s!"Sprite \"{sprite}\": could not load svg source ({reason}). Default sprite used."

/-- A remark with the line and the target it belongs to. -/
structure Warning where
  /-- The line, counted from one; zero is no line. -/
  line : Nat
  /-- What was met. -/
  remark : Remark
  /-- The target. -/
  scope : Option String := none
deriving DecidableEq, Repr

namespace Warning

/-- The diagnostic that shows a warning. -/
def diagnostic (w : Warning) : Diagnostic :=
  ⟨.warning, w.line, w.remark.message, w.scope⟩

/-- The text of a warning. -/
def render (w : Warning) : String :=
  w.diagnostic.render

/-- The warning, said of a target. -/
def within (w : Warning) (scope : String) : Warning :=
  { w with scope := some scope }

end Warning

end BlockScript

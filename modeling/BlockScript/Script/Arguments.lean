import BlockScript.Call
import BlockScript.Number.Text
import BlockScript.Script.Draft

/-!
# Argument texts

How the texts of a line or call reach the slots of a command, and what becomes of a text that is
no expression. A slot that gets no text takes its default, and a text that does not fit its slot
is replaced; both are remarked on.
-/

namespace BlockScript

/-- The argument texts a command was written with. -/
inductive Arguments where
  /-- The tokens of a line after the command, without and with their quotes. -/
  | ofLine (tokens raw : List String)
  /-- The arguments of a call. -/
  | ofCall (args : List String)
deriving DecidableEq, Repr

namespace Arguments

/-- The texts without quotes. -/
def texts : Arguments → List String
  | ofLine tokens _ => tokens
  | ofCall args => args

/-- The text of a slot. -/
def read (a : Arguments) : ArgumentSource → String
  | .index i => (a.texts[i]?).getD ""
  | .rest start => Text.join " " (a.texts.drop start)
  | .unbound => ""

/-- The text of a condition. On a line a condition takes all that is left, with its quotes. -/
def readCondition (a : Arguments) (source : ArgumentSource) : String :=
  match a with
  | ofLine _ raw =>
    match source.position? with
    | some i => Text.join " " (raw.drop i)
    | none => ""
  | ofCall _ => a.read source

end Arguments

/-! ### Literals -/

/-- The literal of a slot; some kinds of slots are never empty. -/
def SlotKind.literal (kind : SlotKind) (value : String) : Literal :=
  match kind with
  | .integer => ⟨.integer, Text.orElse value "0"⟩
  | .angle => ⟨.angle, Text.orElse value "90"⟩
  | .color => ⟨.color, Text.orElse value "#ff0000"⟩
  | .number => ⟨.number, Text.orElse value "0"⟩
  | .text => .ofText value
  | .menu => .ofText value
  | .boolean => .ofText value

/-- Whether a text is a color: a number sign and six hexadecimal digits. -/
def isHexColor (s : String) : Bool :=
  match s.toList with
  | '#' :: digits => digits.length == 6 && digits.all fun c ↦ (Hex.digitValue? c).isSome
  | _ => false

namespace InputSpec

/-- Whether the text of a slot is an expression. In a text slot only the mark makes it one. -/
def isExpression (spec : InputSpec) (raw : String) : Bool :=
  let value := Chars.trim raw.toList
  !raw.isEmpty && spec.allowExpression &&
    (value.head? == some '@' || (spec.kind != .text && Call.isShaped raw))

/-- The text that a literal slot holds for a text given, with what is to be remarked. -/
def literalText (spec : InputSpec) (command raw : String) : String × Option Remark :=
  let fallback := spec.defaultText
  let value := Text.trim raw
  match spec.kind with
  | .text => (Text.orElse value fallback, none)
  | .color =>
    if isHexColor value then (value, none)
    else
      (Text.orElse fallback "#ff0000",
        if value.isEmpty then none else some (.expectedColor command spec.name fallback))
  | .integer =>
    match Number.parse? value with
    | some n => (Number.format n.trunc, none)
    | none => (Text.orElse fallback "0", some (.expectedInteger command spec.name fallback))
  | .number | .angle =>
    match Number.parse? value with
    | some n => (Number.format n, none)
    | none => (Text.orElse fallback "0", some (.expectedNumber command spec.name fallback))
  | .menu | .boolean => (fallback, none)

/-- The text that a menu shows for a text given, with what is to be remarked. -/
def menuText (spec : InputSpec) (raw : String) : String × Option Remark :=
  let fallback := spec.defaultText
  let value := Text.orElse (Text.trim raw) fallback
  let value := if spec.uppercase then Text.upper value else value
  if !spec.options.isEmpty && !spec.options.contains value then
    (fallback, some (.invalidOption spec.name value fallback))
  else (value, none)

end InputSpec

namespace Draft

/-- Adds a warning if there is anything to remark. -/
def warnIf (d : Draft) (line : Nat) : Option Remark → Draft
  | some remark => d.warn line remark
  | none => d

/-- The text of a field after its default, upper case and options, with what is to be
remarked. -/
def fieldText (d : Draft) (line : Nat) (command : String) (spec : FieldSpec) (raw : String) :
    String × Draft :=
  let (raw, d) :=
    match spec.default? with
    | some value =>
      if raw.isEmpty then (value, d.warn line (.defaultedField command spec.name value))
      else (raw, d)
    | none => (raw, d)
  let value := if spec.uppercase then Text.upper raw else raw
  if !spec.options.isEmpty && !spec.options.contains value then
    let fallback := spec.default?.getD ""
    (fallback, d.warn line (.invalidOption spec.name value fallback))
  else (value, d)

/-- Fills one field of a block. -/
def bindField (line : Nat) (command : String) (args : Arguments) (block : BlockId) (d : Draft)
    (spec : FieldSpec) : Draft :=
  let (text, d) := d.fieldText line command spec (args.read spec.source)
  let (field, d) := d.fieldFor spec.symbols text (spec.default?.getD "item")
  d.setField block spec.name field

/-- Fills the fields of a block. -/
def bindFields (d : Draft) (line : Nat) (command : String) (specs : List FieldSpec)
    (args : Arguments) (block : BlockId) : Draft :=
  specs.foldl (bindField line command args block) d

/-- The text of an input after its default. -/
def inputText (d : Draft) (line : Nat) (command : String) (spec : InputSpec) (args : Arguments) :
    String × Draft :=
  let raw := if spec.kind = .boolean then args.readCondition spec.source else args.read spec.source
  match spec.default? with
  | some value =>
    if raw.isEmpty then (value, d.warn line (.defaultedInput command spec.name value)) else (raw, d)
  | none => (raw, d)

/-- The fallback of a menu input: a shadow block where the menu has one, else a literal. -/
def menuFallback (d : Draft) (line : Nat) (spec : InputSpec) (block : BlockId) (raw : String) :
    Fallback × Draft :=
  let (text, remark) := spec.menuText raw
  let d := d.warnIf line remark
  match spec.menuOpcode with
  | some opcode =>
    let (menu, d) := d.create opcode (.shadow block)
    let (field, d) := d.fieldFor spec.symbols text (spec.default?.getD "item")
    (.shadow menu, d.setField menu (spec.menuField.getD spec.name) field)
  | none => (.literal (.ofText text), d)

end Draft

end BlockScript

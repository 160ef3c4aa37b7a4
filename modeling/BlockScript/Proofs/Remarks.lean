import BlockScript.Proofs.Parse
import BlockScript.Proofs.Shape

/-!
# What is remarked on a line

The remarks on a line are a function of the line, the catalog and the kind of the target: they do
not depend on what was read before (`Remarks.line`). Like the functions in `Reading`, those in
`Remarks` follow the ones that make blocks step by step: first the remarks on the fields of a block,
then those on each of its inputs, with the remarks on the expressions in it.

What the parts of the work that look at texts do to a draft is said here by equations: they tell
some remarks (`Draft.tell`), and some of them ask for a symbol or fill a field. That the work on a
line tells the remarks on it, and no others, is part of what every walk along it shows.
-/

namespace BlockScript

/-! ### Remarks on texts -/

namespace Remarks

/-- The remarks on the expression in a text, where a truth value is expected or not. -/
abbrev Reader := (text : String) → (condition : Bool) → List Remark

/-- The remarks on an operand of a comparison. -/
def operand (read : Reader) (text : String) : List Remark :=
  if Reading.isOperandExpression text then read (Call.dropMarker text) false else []

/-- The remarks on a comparison. -/
def comparison (read : Reader) (c : Comparison) : List Remark :=
  operand read c.left ++ operand read c.right

/-- The remarks on a condition. -/
def condition (read : Reader) (command raw : String) : List Remark :=
  let value := Text.trim raw
  if Text.startsWith value "@" || Call.isShaped value then read (Call.dropMarker value) true
  else match Comparison.split? value with
    | some c => comparison read c
    | none =>
      let word := Text.lower (Token.unquote value)
      if word == "true" || word == "false" then [] else [.expectedCondition command]

/-- The remarks on a field. -/
def field (command : String) (args : Arguments) (spec : FieldSpec) : List Remark :=
  let raw := args.read spec.source
  let missing :=
    if raw.isEmpty then spec.default?.toList.map (.defaultedField command spec.name) else []
  let raw := if raw.isEmpty then spec.default?.getD raw else raw
  let value := if spec.uppercase then Text.upper raw else raw
  missing ++
    if !spec.options.isEmpty && !spec.options.contains value then
      [.invalidOption spec.name value (spec.default?.getD "")]
    else []

/-- The text that is written for an input. -/
def writtenText (spec : InputSpec) (args : Arguments) : String :=
  if spec.kind = .boolean then args.readCondition spec.source else args.read spec.source

/-- The remarks on an input that takes its default. -/
def missing (command : String) (args : Arguments) (spec : InputSpec) : List Remark :=
  if (writtenText spec args).isEmpty then
    spec.default?.toList.map (.defaultedInput command spec.name)
  else []

/-- The remarks on the text of a menu. -/
def menuSlot (read : Reader) (spec : InputSpec) (raw : String) : List Remark :=
  if spec.isExpression raw then
    (spec.menuText spec.defaultText).2.toList ++ read (Call.dropMarker raw) false
  else (spec.menuText raw).2.toList

/-- The remarks on the text of an input that holds a text, a number or a color. -/
def literalSlot (read : Reader) (command : String) (spec : InputSpec) (raw : String) :
    List Remark :=
  if spec.isExpression raw then read (Call.dropMarker raw) false
  else (spec.literalText command raw).2.toList

/-- The remarks on an input. -/
def input (read : Reader) (command : String) (args : Arguments) (spec : InputSpec) : List Remark :=
  let raw := Reading.inputText spec args
  missing command args spec ++
    match spec.kind with
    | .menu => menuSlot read spec raw
    | .boolean => condition read command raw
    | _ => literalSlot read command spec raw

/-- The remarks on the block of a command. -/
def commandBlock (read : Reader) (c : Command) (args : Arguments) : List Remark :=
  c.fields.flatMap (field c.name args) ++ c.inputs.flatMap (input read c.name args)

/-- The remarks on a call whose inner expressions are read by `read`. -/
def call (read : Reader) (catalog : Catalog) (target : TargetKind) : Reader :=
  fun text condition ↦
    match Call.parse text with
    | .error _ => []
    | .ok call =>
      match Build.expressionCommand catalog target call.name with
      | .error _ => []
      | .ok c =>
        (if condition && c.kind != .boolean then [.notBoolean call.name] else []) ++
          commandBlock read c (.ofCall call.args)

/-- The remarks on an expression whose calls nest less than `bound` deep. -/
def expression (catalog : Catalog) (target : TargetKind) : Nat → Reader
  | 0 => fun _ _ ↦ []
  | bound + 1 => call (expression catalog target bound) catalog target

/-- The remarks on a line. Only a command that makes a block with slots gives rise to any. -/
def line (catalog : Catalog) (target : TargetKind) (source : SourceLine) : List Remark :=
  match source.tokens with
  | [] => []
  | first :: raw =>
    match catalog.resolve? (Token.unquote first) with
    | none => []
    | some c =>
      if c.kind = .hat ∨ c.kind.isStatement = true then
        commandBlock
          (expression catalog target (catalog.nestingBound (Text.trim source.text).length)) c
          (.ofLine (raw.map Token.unquote) raw)
      else []

end Remarks

/-- The warnings for remarks on a line. -/
def Remarks.warnings (line : Nat) (told : List Remark) : List Warning :=
  told.map fun remark ↦ ⟨line, remark, none⟩

/-- Warnings are told in the order of the remarks. -/
theorem Remarks.warnings_append (line : Nat) (told told' : List Remark) :
    warnings line (told ++ told') = warnings line told ++ warnings line told' :=
  List.map_append

/-- The content of an input that reads a text. -/
def Remarks.content (read : Reader) (command : String) (spec : InputSpec) (raw : String) :
    List Remark :=
  match spec.kind with
  | .menu => menuSlot read spec raw
  | .boolean => condition read command raw
  | _ => literalSlot read command spec raw

/-- What is remarked on an input: that it is missing, and then what its content is remarked for. -/
theorem Remarks.input_eq (read : Reader) (command : String) (args : Arguments) (spec : InputSpec) :
    input read command args spec =
      missing command args spec ++ content read command spec (Reading.inputText spec args) :=
  rfl

/-! ### Telling remarks -/

namespace Draft

variable {d e f : Draft} {line : Nat} {told told' : List Remark}

/-- The second draft has the warnings of the first one, and after them one for each remark. -/
def Told (d : Draft) (line : Nat) (told : List Remark) (e : Draft) : Prop :=
  e.warnings = d.warnings ++ told.map fun remark ↦ ⟨line, remark, none⟩

/-- Adds the warnings for some remarks. -/
def tell (d : Draft) (line : Nat) (told : List Remark) : Draft :=
  { d with warnings := d.warnings ++ Remarks.warnings line told }

/-- Telling nothing leaves a draft alone. -/
theorem tell_nil (d : Draft) (line : Nat) : d.tell line [] = d := by
  simp [tell, Remarks.warnings]

/-- Telling twice is telling everything at once. -/
theorem tell_tell (d : Draft) (line : Nat) (told told' : List Remark) :
    (d.tell line told).tell line told' = d.tell line (told ++ told') := by
  simp [tell, Remarks.warnings]

/-- A warning that may be missing is told as a list of at most one remark. -/
theorem warnIf_eq_tell (d : Draft) (line : Nat) (remark : Option Remark) :
    d.warnIf line remark = d.tell line remark.toList := by
  cases remark with
  | none => exact (d.tell_nil line).symm
  | some remark => rfl

/-- Telling remarks leaves everything else alone. -/
theorem Quiet.tell (d : Draft) (line : Nat) (told : List Remark) : d.Quiet (d.tell line told) :=
  ⟨rfl, rfl, rfl, rfl⟩

/-- Fills a field of a block with a text, bound to the symbol that it names. -/
def setText (d : Draft) (block : BlockId) (name : String) (symbols : Option SymbolKind)
    (text fallback : String) : Draft :=
  (d.fieldFor symbols text fallback).2.setField block name (d.fieldFor symbols text fallback).1

/-- Finding the text of a field tells what is remarked on it. -/
theorem fieldText_eq_tell (d : Draft) (line : Nat) (command : String) (args : Arguments)
    (spec : FieldSpec) :
    d.fieldText line command spec (args.read spec.source) =
      (Reading.fieldText spec (args.read spec.source),
        d.tell line (Remarks.field command args spec)) := by
  have hcheck : ∀ (bad : Bool) (value fallback : String) (e : Draft) (remark : Remark),
      (if bad then (fallback, e.warn line remark) else (value, e)) =
        (if bad then fallback else value, e.tell line (if bad then [remark] else [])) := by
    intro bad value fallback e remark
    cases bad
    · simp [tell_nil]
    · rfl
  unfold fieldText Reading.fieldText Remarks.field
  generalize args.read spec.source = raw
  cases spec.default? with
  | none =>
    simp only [Option.toList_none, List.map_nil, ite_self, List.nil_append, Option.getD_none]
    exact hcheck _ _ _ d _
  | some value =>
    by_cases hr : raw.isEmpty
    · simp only [hr, if_true]
      rw [← tell_tell]
      exact hcheck _ _ _ _ _
    · simp only [hr]
      exact hcheck _ _ _ d _

/-- Filling a field tells what is remarked on it. -/
theorem bindField_eq (d : Draft) (line : Nat) (command : String) (args : Arguments)
    (block : BlockId) (spec : FieldSpec) :
    bindField line command args block d spec =
      (d.tell line (Remarks.field command args spec)).setText block spec.name spec.symbols
        (Reading.fieldText spec (args.read spec.source)) (spec.default?.getD "item") := by
  unfold bindField
  rw [fieldText_eq_tell]
  rfl

/-- Finding the text of an input tells whether it is the default. -/
theorem inputText_eq_tell (d : Draft) (line : Nat) (command : String) (spec : InputSpec)
    (args : Arguments) :
    d.inputText line command spec args =
      (Reading.inputText spec args, d.tell line (Remarks.missing command args spec)) := by
  unfold inputText Reading.inputText Remarks.missing Remarks.writtenText
  generalize (if spec.kind = .boolean then args.readCondition spec.source
    else args.read spec.source) = raw
  cases spec.default? with
  | none => simp [tell_nil]
  | some value =>
    cases hraw : raw.isEmpty
    · simp [hraw, tell_nil]
    · simp [hraw]
      rfl

/-- A menu shows its text as a constant, or in a shadow block of its own with one field. -/
theorem menuFallback_eq (d : Draft) (line : Nat) (spec : InputSpec) (block : BlockId)
    (raw : String) :
    d.menuFallback line spec block raw =
      match spec.menuOpcode with
      | some opcode =>
        (.shadow ((d.tell line (spec.menuText raw).2.toList).create opcode (.shadow block)).1,
          ((d.tell line (spec.menuText raw).2.toList).create opcode (.shadow block)).2.setText
            ((d.tell line (spec.menuText raw).2.toList).create opcode (.shadow block)).1
            (spec.menuField.getD spec.name) spec.symbols (spec.menuText raw).1
            (spec.default?.getD "item"))
      | none =>
        (.literal (.ofText (spec.menuText raw).1), d.tell line (spec.menuText raw).2.toList) := by
  unfold menuFallback
  rw [← warnIf_eq_tell]
  cases spec.menuOpcode with
  | none => rfl
  | some opcode => rfl

end Draft

end BlockScript

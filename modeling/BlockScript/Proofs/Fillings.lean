import BlockScript.Proofs.Parts
import BlockScript.Proofs.Remarks

/-!
# What inputs are filled with

The inputs of a line are those of its command and of the calls in it (`Fills`). What is written for
one of them is shown or gives way to the default of the input, and is remarked on or not
(`Filling.shown`, `Filling.remarks`). Which of these happens depends on the text alone: a text that
is of use is shown (`InputSpec.check_of_taken`), one that is of no use is replaced with a remark
(`InputSpec.check_of_rejects`), and white space is replaced without one
(`InputSpec.check_of_blank`).

What is read for a command has a part for each of its inputs, and what is remarked on the command
includes the remarks on all of them (`Fills.exists_part`).
-/

namespace BlockScript

/-! ### Remarks on the expressions in an input -/

namespace Remarks

variable (read : Reader) {inner : String}

theorem operand_subset {text : String} (hx : Reading.isOperandExpression text = true) :
    read (Call.dropMarker text) false ⊆ operand read text := by
  rw [operand, if_pos hx]
  exact List.Subset.refl _

theorem comparison_subset {c : Comparison}
    (h : inner ∈ ([c.left, c.right].filter Reading.isOperandExpression).map Call.dropMarker) :
    read inner false ⊆ comparison read c := by
  obtain ⟨text, htext, rfl⟩ := List.mem_map.1 h
  obtain ⟨hmem, hx⟩ := List.mem_filter.1 htext
  have hoperand := operand_subset read hx
  rcases List.mem_cons.1 hmem with rfl | hmem
  · exact fun r hr ↦ List.mem_append_left _ (hoperand hr)
  · obtain rfl := List.mem_singleton.1 hmem
    exact fun r hr ↦ List.mem_append_right _ (hoperand hr)

theorem exists_condition_subset (command : String) {raw : String} (h : inner ∈ conditionParts raw) :
    ∃ isCondition, read inner isCondition ⊆ condition read command raw := by
  unfold conditionParts at h
  unfold condition
  generalize Text.trim raw = value at h ⊢
  dsimp only at h ⊢
  split at h
  · next hx =>
    obtain rfl := List.mem_singleton.1 h
    rw [if_pos hx]
    exact ⟨true, List.Subset.refl _⟩
  · next hx =>
    rw [if_neg hx]
    cases hsplit : Comparison.split? value with
    | some c =>
      rw [hsplit] at h
      exact ⟨false, comparison_subset read h⟩
    | none =>
      rw [hsplit] at h
      cases h

theorem exists_input_subset (command : String) {args : Arguments} {spec : InputSpec}
    (h : inner ∈ spec.embedded (Reading.inputText spec args)) :
    ∃ isCondition, read inner isCondition ⊆ input read command args spec := by
  unfold InputSpec.embedded at h
  unfold input
  dsimp only
  generalize Reading.inputText spec args = raw at h ⊢
  split at h
  · next hkind =>
    obtain ⟨isCondition, hsub⟩ := exists_condition_subset read command h
    refine ⟨isCondition, fun r hr ↦ List.mem_append_right _ ?_⟩
    rw [hkind]
    exact hsub hr
  · next hkind =>
    split at h
    · next hx =>
      obtain rfl := List.mem_singleton.1 h
      refine ⟨false, fun r hr ↦ List.mem_append_right _ ?_⟩
      -- a condition was dealt with above, and any other slot may hold an expression
      cases hspec : spec.kind with
      | boolean => exact absurd hspec hkind
      | menu =>
        dsimp only
        rw [menuSlot, if_pos hx]
        exact List.mem_append_right _ hr
      | text | number | integer | angle | color =>
        dsimp only
        rw [literalSlot, if_pos hx]
        exact hr
    · cases h

theorem input_subset {c : Command} {args : Arguments} {spec : InputSpec} (h : spec ∈ c.inputs) :
    input read c.name args spec ⊆ commandBlock read c args :=
  fun _ hr ↦ List.mem_append_right _ (List.mem_flatMap.2 ⟨spec, h, hr⟩)

/-- What is remarked on an expression is remarked on the command that it stands in. -/
theorem exists_commandBlock_subset {c : Command} {args : Arguments}
    (h : inner ∈ c.embedded args) :
    ∃ isCondition, read inner isCondition ⊆ commandBlock read c args := by
  obtain ⟨spec, hspec, hinner⟩ := List.mem_flatMap.1 h
  obtain ⟨isCondition, hsub⟩ := exists_input_subset read c.name hinner
  exact ⟨isCondition, fun r hr ↦ input_subset read hspec (hsub hr)⟩

end Remarks

/-! ### Fillings -/

namespace InputSpec

variable (spec : InputSpec)

/-- A text as a menu takes it. -/
def cased (text : String) : String :=
  if spec.uppercase then Text.upper text else text

/-- Whether a text that is not blank is of no use in the slot. -/
def Rejects (text : String) : Bool :=
  let value := Text.trim text
  match spec.kind with
  | .text | .boolean => false
  | .color => !isHexColor value
  | .number | .integer | .angle => (Number.parse? value).isNone
  | .menu => !spec.options.isEmpty && !spec.options.contains (spec.cased value)

/-- The remark on a text that is rejected. -/
def rejection (command text : String) : Remark :=
  match spec.kind with
  | .color => .expectedColor command spec.name spec.defaultText
  | .integer => .expectedInteger command spec.name spec.defaultText
  | .number | .angle => .expectedNumber command spec.name spec.defaultText
  | _ => .invalidOption spec.name (spec.cased (Text.trim text)) spec.defaultText

/-- What a slot shows for a text that it takes. -/
def taken (text : String) : String :=
  let value := Text.trim text
  match spec.kind with
  | .text | .boolean | .color => value
  | .menu => spec.cased value
  | .integer => ((Number.parse? value).map fun n ↦ Number.format n.trunc).getD value
  | .number | .angle => ((Number.parse? value).map Number.format).getD value

/-- What a slot shows for a text of nothing but white space. -/
def blankText : String :=
  if spec.kind.isNumeric then "0" else spec.defaultText

/-- The text that a slot shows for a text that is no expression, and what is remarked on it. -/
def check (command text : String) : String × Option Remark :=
  if spec.kind = .menu then spec.menuText text else spec.literalText command text

/-- The default of the slot suits it. -/
structure HasFittingDefault : Prop where
  /-- It is more than white space. -/
  filled : Text.trim spec.defaultText ≠ ""
  /-- It is of use in the slot. -/
  accepted : spec.Rejects spec.defaultText = false
  /-- It is shown as it is, but for white space around it. -/
  taken : spec.taken spec.defaultText = Text.trim spec.defaultText
  /-- Only in a slot for a text there may be white space around it. -/
  trimmed : spec.kind ≠ .text → Text.trim spec.defaultText = spec.defaultText

variable {spec} {command text : String}

theorem HasFittingDefault.orElse (h : spec.HasFittingDefault) (fallback : String) :
    Text.orElse spec.defaultText fallback = spec.defaultText := by
  refine if_neg fun hempty ↦ h.filled ?_
  rw [String.isEmpty_iff.1 hempty]
  decide

/-- A text that is of use in the slot is shown, with no remark. -/
theorem check_of_taken (hkind : spec.kind ≠ .boolean) (htext : Text.trim text ≠ "")
    (h : spec.Rejects text = false) : spec.check command text = (spec.taken text, none) := by
  have hvalue : ∀ fallback, Text.orElse (Text.trim text) fallback = Text.trim text :=
    fun fallback ↦ if_neg fun hempty ↦ htext (String.isEmpty_iff.1 hempty)
  unfold Rejects at h
  unfold check taken literalText menuText
  cases hspec : spec.kind <;> rw [hspec] at h <;> dsimp only at h ⊢
  case boolean => exact absurd hspec hkind
  case text => rw [if_neg nofun, hvalue]
  case color => rw [if_neg nofun, if_pos (by simpa using h)]
  case number | angle | integer =>
    rw [if_neg nofun]
    cases hn : Number.parse? (Text.trim text) with
    | none => simp [hn] at h
    | some n => rfl
  case menu =>
    rw [if_pos rfl, hvalue, show (if spec.uppercase = true then _ else _) = spec.cased _ from rfl,
      h]
    rfl

/-- A text that is of no use gives way to the default, with a remark. -/
theorem check_of_rejects (hdefault : spec.HasFittingDefault) (htext : Text.trim text ≠ "")
    (h : spec.Rejects text = true) :
    spec.check command text = (spec.defaultText, some (spec.rejection command text)) := by
  have hvalue : Text.orElse (Text.trim text) spec.defaultText = Text.trim text :=
    if_neg fun hempty ↦ htext (String.isEmpty_iff.1 hempty)
  have hfilled : (Text.trim text).isEmpty = false :=
    Bool.eq_false_iff.2 fun hempty ↦ htext (String.isEmpty_iff.1 hempty)
  unfold Rejects at h
  unfold check rejection literalText menuText
  cases hspec : spec.kind <;> rw [hspec] at h <;> dsimp only at h ⊢
  case text | boolean => cases h
  case color =>
    rw [if_neg nofun, if_neg (by simpa using h), hdefault.orElse, hfilled]
    rfl
  case number | angle | integer =>
    rw [if_neg nofun, Option.isNone_iff_eq_none.1 h]
    dsimp only
    rw [hdefault.orElse]
  case menu =>
    rw [if_pos rfl, hvalue, show (if spec.uppercase = true then _ else _) = spec.cased _ from rfl,
      h]
    rfl

/-- A text of nothing but white space is replaced without a remark. -/
theorem check_of_blank (hdefault : spec.HasFittingDefault) (hkind : spec.kind ≠ .boolean)
    (htext : Text.trim text = "") : spec.check command text = (spec.blankText, none) := by
  -- an empty number is zero, which is written as one digit
  have hzero : Number.parse? "" = some (Binary64.zero false) := rfl
  have hformat : Number.format (Binary64.zero false) = "0" ∧
      Number.format (Binary64.zero false).trunc = "0" := by decide +kernel
  unfold check blankText literalText menuText
  rw [htext]
  cases hspec : spec.kind <;> dsimp only
  case boolean => exact absurd hspec hkind
  case text => rfl
  case color =>
    rw [if_neg nofun, if_neg (by decide), hdefault.orElse]
    rfl
  case number | angle =>
    rw [if_neg nofun, hzero]
    exact congrArg (·, none) hformat.1
  case integer =>
    rw [if_neg nofun, hzero]
    exact congrArg (·, none) hformat.2
  case menu =>
    have haccepted := hdefault.accepted
    have htaken := hdefault.taken
    rw [Rejects, hspec] at haccepted
    rw [taken, hspec] at htaken
    dsimp only at haccepted htaken
    rw [hdefault.trimmed (by rw [hspec]; nofun)] at haccepted htaken
    rw [if_pos rfl, show Text.orElse "" spec.defaultText = spec.defaultText from rfl,
      show (if spec.uppercase = true then _ else _) = spec.cased _ from rfl, haccepted, htaken]
    rfl

/-- The default itself is shown, with no remark. -/
theorem check_defaultText (hdefault : spec.HasFittingDefault) (hkind : spec.kind ≠ .boolean) :
    spec.check command spec.defaultText = (Text.trim spec.defaultText, none) := by
  rw [check_of_taken hkind hdefault.filled hdefault.accepted, hdefault.taken]

end InputSpec

theorem Catalog.builtin_hasFittingDefault {c : Command} (hc : c ∈ builtin.commands.values)
    {spec : InputSpec} (hspec : spec ∈ c.inputs) (hkind : spec.kind ≠ .boolean)
    (hdefault : spec.default?.isSome) : spec.HasFittingDefault := by
  have hall : ∀ c ∈ builtinCommands, ∀ spec ∈ c.inputs, spec.kind ≠ .boolean →
      spec.default?.isSome → Text.trim spec.defaultText ≠ "" ∧
      spec.Rejects spec.defaultText = false ∧
      spec.taken spec.defaultText = Text.trim spec.defaultText ∧
      (spec.kind ≠ .text → Text.trim spec.defaultText = spec.defaultText) := by decide +kernel
  obtain ⟨hfilled, haccepted, htaken, htrimmed⟩ :=
    hall c (mem_builtinCommands hc) spec hspec hkind hdefault
  exact ⟨hfilled, haccepted, htaken, htrimmed⟩

/-- An input of a command with the arguments that the command is written with. -/
structure Filling where
  /-- The command. -/
  command : Command
  /-- Its arguments. -/
  args : Arguments
  /-- The input. -/
  spec : InputSpec

/-- The inputs of a command and of the calls in its arguments. -/
inductive Fills (catalog : Catalog) (target : TargetKind) : Command → Arguments → Filling →
    Prop where
  | own {c : Command} {args : Arguments} {spec : InputSpec} (hspec : spec ∈ c.inputs) :
    Fills catalog target c args ⟨c, args, spec⟩
  | nested {c c' : Command} {args : Arguments} {inner : String} {call : Call} {f : Filling}
    (hinner : inner ∈ c.embedded args) (hparse : Call.parse inner = .ok call)
    (hcommand : Build.expressionCommand catalog target call.name = .ok c')
    (h : Fills catalog target c' (.ofCall call.args) f) : Fills catalog target c args f

namespace Filling

variable (f : Filling)

/-- The text that is written for the input. -/
def written : String := Remarks.writtenText f.spec f.args

/-- The text that the input shows. -/
def shown : String := (f.spec.check f.command.name (Reading.inputText f.spec f.args)).1

/-- What is remarked on the input. -/
def remarks : List Remark :=
  Remarks.missing f.command.name f.args f.spec ++
    (f.spec.check f.command.name (Reading.inputText f.spec f.args)).2.toList

/-- The input has a default and is no condition, and what is written for it is no expression. -/
structure IsConstant : Prop where
  kind : f.spec.kind ≠ .boolean
  default : f.spec.default?.isSome
  constant : f.spec.isExpression f.written = false

/-- What the input holds. -/
def content : Content Unit :=
  if f.spec.kind = .menu then Reading.menuFallback f.spec (Reading.inputText f.spec f.args)
  else { constant := some (f.spec.kind.literal f.shown) }

variable {f}

theorem inputText_of_missing (h : f.written = "") :
    Reading.inputText f.spec f.args = f.spec.defaultText := by
  unfold written Remarks.writtenText at h
  rw [Reading.inputText, h]
  rfl

theorem inputText_of_written (h : f.written ≠ "") :
    Reading.inputText f.spec f.args = f.written :=
  if_neg fun hempty ↦ h (String.isEmpty_iff.1 hempty)

section

variable (hconstant : f.IsConstant) (hplain : f.spec.embedded f.spec.defaultText = [])
include hconstant hplain

/-- The text after the default is no expression either. -/
theorem isExpression_inputText : f.spec.isExpression (Reading.inputText f.spec f.args) = false := by
  by_cases h : f.written = ""
  · rw [InputSpec.embedded, if_neg hconstant.kind] at hplain
    rw [inputText_of_missing h]
    exact Bool.eq_false_iff.2 fun hx ↦ by rw [if_pos hx] at hplain; cases hplain
  · rw [inputText_of_written h]
    exact hconstant.constant

theorem input_eq_content {read : Reading.Reader} :
    Reading.input read f.command.name f.args f.spec = .ok f.content := by
  have hx := isExpression_inputText hconstant hplain
  unfold Reading.input content shown InputSpec.check
  generalize Reading.inputText f.spec f.args = raw at hx ⊢
  cases hkind : f.spec.kind with
  | boolean => exact absurd hkind hconstant.kind
  | menu =>
    rw [if_pos rfl]
    simp only [Reading.menuSlot, hx]
    rfl
  | text | number | integer | angle | color =>
    rw [if_neg nofun]
    simp only [Reading.literalSlot, hx, hkind]
    rfl

theorem input_eq_remarks {read : Remarks.Reader} :
    Remarks.input read f.command.name f.args f.spec = f.remarks := by
  have hx := isExpression_inputText hconstant hplain
  unfold Remarks.input remarks InputSpec.check
  generalize Reading.inputText f.spec f.args = raw at hx ⊢
  dsimp only
  cases hkind : f.spec.kind with
  | boolean => exact absurd hkind hconstant.kind
  | menu =>
    simp only [Remarks.menuSlot, hx]
    rfl
  | text | number | integer | angle | color =>
    simp only [Remarks.literalSlot, hx]
    rfl

end

end Filling

/-- The inputs are inputs of commands of the catalog. -/
theorem Fills.mem {catalog : Catalog} {target : TargetKind} {c : Command} {args : Arguments}
    {f : Filling} (h : Fills catalog target c args f) (hc : c ∈ catalog.commands.values) :
    f.command ∈ catalog.commands.values ∧ f.spec ∈ f.command.inputs := by
  induction h with
  | own hspec => exact ⟨hc, hspec⟩
  | nested _ _ hcommand _ ih =>
    exact ih (Catalog.mem_values_of_resolve? (Build.expressionCommand_eq_ok.1 hcommand).1)

/-- The block of a command has a part for each of its inputs and those of the calls in it, and what
is remarked on these inputs is remarked on the command. -/
theorem Fills.exists_part {catalog : Catalog} {target : TargetKind} {c : Command} {args : Arguments}
    {f : Filling} (h : Fills catalog target c args f) (hconstant : f.IsConstant)
    (hplain : f.spec.embedded f.spec.defaultText = []) (line : Nat) : ∀ {bound : Nat} {tree : Tree},
    Reading.commandBlock (Reading.expression catalog target line bound) c args = .ok tree →
    (∃ p ∈ tree.parts, p.node.opcode = f.command.opcode ∧
      (f.spec.name, f.content) ∈ p.slots.entries) ∧
      f.remarks ⊆ Remarks.commandBlock (Remarks.expression catalog target bound) c args := by
  induction h with
  | @own c args spec hspec =>
    intro bound tree htree
    obtain ⟨slots, hslots, h⟩ := Reading.bind_eq_ok.1 htree
    obtain rfl := Except.ok.inj h
    obtain ⟨content, hcontent, hmem⟩ := Reading.mem_entries_of_inputs hslots hspec
    rw [Filling.input_eq_content (f := ⟨c, args, spec⟩) hconstant hplain] at hcontent
    obtain rfl := Except.ok.inj hcontent
    refine ⟨⟨_, List.mem_cons_self, rfl, hmem⟩, ?_⟩
    rw [← Filling.input_eq_remarks hconstant hplain]
    exact Remarks.input_subset _ hspec
  | nested hinner hparse hcommand _ ih =>
    intro bound tree htree
    obtain ⟨t, ht, hparts⟩ := Reading.commandBlock_includes htree _ hinner
    obtain ⟨isCondition, hsub⟩ := Remarks.exists_commandBlock_subset
      (Remarks.expression catalog target bound) hinner
    cases bound with
    | zero => cases ht
    | succ bound =>
      -- one level of the bound is spent on the call
      rw [Reading.expression, Reading.call, hparse] at ht
      dsimp only at ht
      rw [hcommand] at ht
      obtain ⟨⟨p, hp, hnode, hentry⟩, hremarks⟩ := ih hconstant hplain ht
      refine ⟨⟨p, hparts hp, hnode, hentry⟩, fun r hr ↦ hsub ?_⟩
      rw [Remarks.expression, Remarks.call, hparse]
      dsimp only
      rw [hcommand]
      exact List.mem_append_right _ (hremarks hr)

end BlockScript

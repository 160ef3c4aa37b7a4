import BlockScript.Proofs.Lines
import BlockScript.Proofs.Written

/-!
# Regular catalogs

What a catalog has to promise for its listings to be read again. Every command answers to its own
word and is the only one for its block; its fields and inputs come in the order in which they are
written; no default is an expression; and the words that hold scripts together are there with the
slots that the grammar knows them by (`Catalog.essential`). The conditions on a single command can
be computed (`Command.IsRegular`), and the built-in catalog satisfies them all
(`Catalog.builtin_isRegular`).
-/

namespace BlockScript

/-! ### Commands -/

/-- A name as it is kept: trimmed and not empty. -/
def Text.isProper (s : String) : Bool :=
  trim s == s && !s.isEmpty

/-- A name or a proper default is proper. -/
theorem Text.isProper_nameOr (name : String) {fallback : String}
    (h : isProper fallback = true) : isProper (nameOr name fallback) = true := by
  unfold nameOr
  dsimp only
  split
  · exact h
  · next hne =>
    have htrim : trim (trim name) = trim name := by simp [trim]
    have hempty : (trim name).isEmpty = false := by simpa using hne
    rw [isProper, htrim, hempty]
    simp

/-- A proper text is its own trimmed form and not empty. -/
theorem Text.isProper_iff {s : String} :
    isProper s = true ↔ Chars.trim s.toList = s.toList ∧ s ≠ "" := by
  have htrim : trim s = s ↔ Chars.trim s.toList = s.toList := by
    rw [trim, ← String.toList_inj, String.toList_ofList]
  simp [isProper, htrim]

/-- A proper text is its own trimmed form. -/
theorem Text.trim_of_isProper {s : String} (h : isProper s = true) : trim s = s := by
  rw [trim, (isProper_iff.1 h).1, String.ofList_toList]

/-- A proper name is taken as it is. -/
theorem Text.nameOr_of_isProper {name : String} (h : isProper name = true) (fallback : String) :
    nameOr name fallback = name := by
  simp only [isProper, Bool.and_eq_true, beq_iff_eq, Bool.not_eq_true'] at h
  simp [nameOr, h]

/-- A field that names a symbol takes every name as it is. -/
def FieldSpec.IsRegular (spec : FieldSpec) : Prop :=
  spec.symbols.isSome = true → spec.options = [] ∧ spec.uppercase = false ∧
    Text.isProper (spec.default?.getD "item") = true

instance (spec : FieldSpec) : Decidable spec.IsRegular :=
  inferInstanceAs (Decidable (_ → _))

/-- An input may hold an expression, though not by default. A menu has a shadow block, takes every
text as it is and names neither variables nor lists; a condition has no default, and that of a color
is a color. -/
structure InputSpec.IsRegular (spec : InputSpec) : Prop where
  allows : spec.allowExpression = true
  literal : spec.isExpression spec.defaultText = false
  menu : spec.kind = .menu → spec.menuOpcode.isSome = true ∧ spec.options = [] ∧
    spec.uppercase = false ∧ Text.isProper spec.defaultText = true
  table : ∀ kind ∈ spec.symbols, kind.isShared = false
  condition : spec.kind = .boolean → spec.default? = none
  color : spec.kind = .color → isHexColor (Text.orElse spec.defaultText "#ff0000") = true

instance (spec : InputSpec) : Decidable spec.IsRegular :=
  decidable_of_iff (spec.allowExpression = true ∧ spec.isExpression spec.defaultText = false ∧
    (spec.kind = .menu → spec.menuOpcode.isSome = true ∧ spec.options = [] ∧
      spec.uppercase = false ∧ Text.isProper spec.defaultText = true) ∧
    (∀ kind ∈ spec.symbols, kind.isShared = false) ∧
    (spec.kind = .boolean → spec.default? = none) ∧
    (spec.kind = .color → isHexColor (Text.orElse spec.defaultText "#ff0000") = true))
    ⟨fun ⟨h₁, h₂, h₃, h₄, h₅, h₆⟩ ↦ ⟨h₁, h₂, h₃, h₄, h₅, h₆⟩,
      fun h ↦ ⟨h.1, h.2, h.3, h.4, h.5, h.6⟩⟩

/-- Whether a source takes a single argument. -/
def ArgumentSource.isIndex : ArgumentSource → Bool
  | index _ => true
  | _ => false

/-- Whether the commands of a kind make a block of their own operation code. -/
def CommandKind.makesBlock : CommandKind → Bool
  | otherwise => false
  | finish => false
  | declare => false
  | _ => true

namespace Command

/-- Where the fields and inputs of a command take their texts from. -/
def sources (c : Command) : List ArgumentSource :=
  c.fields.map (·.source) ++ c.inputs.map (·.source)

/-- The command can be written and read again. -/
structure IsRegular (c : Command) : Prop where
  /-- The word can stand in front of arguments. -/
  name : Chars.isIdentifier c.name.toList = true
  /-- Fields and inputs take one argument each, in the order of their positions. -/
  ordered : c.sources.map ArgumentSource.position? = (List.range c.sources.length).map some
  /-- Only the last of them may take all that is left. -/
  single : ∀ source ∈ c.sources.dropLast, source.isIndex = true
  fieldNames : (c.fields.map (·.name)).Nodup
  fields : ∀ spec ∈ c.fields, spec.IsRegular
  inputs : ∀ spec ∈ c.inputs, spec.IsRegular
  opcode : c.kind.makesBlock = true → c.opcode?.isSome = true
  call : c.kind = .call → c.opcode? = some Opcode.call
  prototype : c.opcode? ≠ some Opcode.prototype
  /-- A line with a condition has no other argument. -/
  condition : c.kind.isExpression = false → (∃ spec ∈ c.inputs, spec.kind = .boolean) →
    c.fields = [] ∧ c.inputs.length = 1
  /-- A nesting block other than a conditional has one sub-chain. -/
  branch : c.kind = .nesting → c.opcode ≠ Opcode.ifThen → c.opcode ≠ Opcode.ifElse →
    c.stackNames.length = 1

instance (c : Command) : Decidable c.IsRegular :=
  decidable_of_iff (Chars.isIdentifier c.name.toList = true ∧
    c.sources.map ArgumentSource.position? = (List.range c.sources.length).map some ∧
    (∀ source ∈ c.sources.dropLast, source.isIndex = true) ∧ (c.fields.map (·.name)).Nodup ∧
    (∀ spec ∈ c.fields, spec.IsRegular) ∧ (∀ spec ∈ c.inputs, spec.IsRegular) ∧
    (c.kind.makesBlock = true → c.opcode?.isSome = true) ∧
    (c.kind = .call → c.opcode? = some Opcode.call) ∧ c.opcode? ≠ some Opcode.prototype ∧
    (c.kind.isExpression = false → (∃ spec ∈ c.inputs, spec.kind = .boolean) →
      c.fields = [] ∧ c.inputs.length = 1) ∧
    (c.kind = .nesting → c.opcode ≠ Opcode.ifThen → c.opcode ≠ Opcode.ifElse →
      c.stackNames.length = 1))
    ⟨fun ⟨h₁, h₂, h₃, h₄, h₅, h₆, h₇, h₈, h₉, h₁₀, h₁₁⟩ ↦
      ⟨h₁, h₂, h₃, h₄, h₅, h₆, h₇, h₈, h₉, h₁₀, h₁₁⟩,
      fun h ↦ ⟨h.1, h.2, h.3, h.4, h.5, h.6, h.7, h.8, h.9, h.10, h.11⟩⟩

/-- A command that makes a block makes it under its own operation code. -/
theorem IsRegular.opcode?_eq {c : Command} (h : c.IsRegular) (hk : c.kind.makesBlock = true) :
    c.opcode? = some c.opcode := by
  obtain ⟨opcode, ho⟩ := Option.isSome_iff_exists.1 (h.opcode hk)
  rw [Command.opcode, ho]
  rfl

/-! ### Words of the grammar -/

/-- The head of a script that runs when the program starts. -/
def flagClicked : Command :=
  { name := "when_flag_clicked", opcode? := some Opcode.flagClicked, kind := .hat }

/-- A condition at the first position. -/
def conditionInput (name : String) (position : Nat) : InputSpec :=
  { name, source := .index position, kind := .boolean }

/-- The conditional with one branch. -/
def ifThen : Command :=
  { name := "if", opcode? := some Opcode.ifThen, kind := .nesting,
    inputs := [conditionInput "CONDITION" 0] }

/-- The conditional with two branches. -/
def ifElse : Command :=
  { name := "if_else", opcode? := some Opcode.ifElse, kind := .nesting,
    stackInputs := ["SUBSTACK", "SUBSTACK2"], inputs := [conditionInput "CONDITION" 0] }

/-- A comparison. -/
def comparison (name opcode : String) : Command :=
  { name, opcode? := some opcode, kind := .boolean,
    inputs := [{ name := "OPERAND1", source := .index 0, kind := .text },
      { name := "OPERAND2", source := .index 1, kind := .text, default? := some "50" }] }

/-- A connective of two conditions. -/
def connective (name opcode : String) : Command :=
  { name, opcode? := some opcode, kind := .boolean,
    inputs := [conditionInput "OPERAND1" 0, conditionInput "OPERAND2" 1] }

/-- The negation of a condition. -/
def negation : Command :=
  { name := "not", opcode? := some Opcode.not, kind := .boolean,
    inputs := [conditionInput "OPERAND" 0] }

/-- The value of an argument of a procedure. -/
def argument (name opcode : String) (kind : CommandKind) : Command :=
  { name, opcode? := some opcode, kind, fields := [{ name := "VALUE", source := .index 0 }] }

/-- The head of a procedure. -/
def definition : Command :=
  { name := "define", opcode? := some Opcode.definition, kind := .define }

/-- The call of a procedure. -/
def procedureCall : Command :=
  { name := "call", opcode? := some Opcode.call, kind := .call }

end Command

/-- The commands that the grammar of scripts rests on. -/
def Catalog.essential : List Command :=
  [.flagClicked, .ifThen, .ifElse, .comparison "gt" Opcode.greater,
    .comparison "lt" Opcode.less, .comparison "equals" Opcode.equals,
    .connective "and" Opcode.and, .connective "or" Opcode.or, .negation,
    .argument "arg" Opcode.argument .reporter,
    .argument "arg_bool" Opcode.booleanArgument .boolean, .definition, .procedureCall,
    { name := "else", kind := .otherwise }, { name := "end", kind := .finish },
    { name := "make_var", kind := .declare }, { name := "make_list", kind := .declare },
    { name := "make_broadcast", kind := .declare }]

/-! ### Catalogs -/

/-- Scripts written with the catalog can be read again. -/
structure Catalog.IsRegular (catalog : Catalog) : Prop where
  /-- The slots of each command have different names. -/
  distinct : catalog.HasDistinctSlots
  /-- A command answers to its own word. -/
  resolve : ∀ c ∈ catalog.commands.values, catalog.resolve? c.name = some c
  /-- Each command can be written and read again. -/
  regular : ∀ c ∈ catalog.commands.values, c.IsRegular
  /-- A command is the only one for its block. -/
  unique : ∀ c ∈ catalog.commands.values, ∀ opcode, c.opcode? = some opcode →
    catalog.visibleFor opcode = [c]
  /-- The words of the grammar are there. -/
  essential : ∀ c ∈ essential, c ∈ catalog.commands.values

namespace Catalog

/-- The built-in catalog has one entry for each command, under its name. -/
theorem entries_builtin_perm :
    builtin.commands.entries.Perm (builtinCommands.map fun c ↦ (c.name, c)) := by
  refine Dict.perm_entries_ofList ?_
  rw [List.map_map]
  decide +kernel

/-- The commands of the built-in catalog are those of the table. -/
theorem values_builtin_perm : builtin.commands.values.Perm builtinCommands := by
  have h := entries_builtin_perm.map Prod.snd
  rw [List.map_map] at h
  exact h.trans (List.Perm.of_eq (List.map_id _))

/-- Among commands for different blocks there is one for each of them. -/
theorem filter_opcode {opcode : String} : ∀ {cs : List Command} {c : Command},
    (cs.filterMap Command.opcode?).Nodup → c ∈ cs → c.opcode? = some opcode →
      cs.filter (·.opcode? == some opcode) = [c]
  | d :: cs, c, hnodup, hc, ho => by
    have hnone : ∀ {o : String}, d.opcode? = some o → ∀ e ∈ cs, e.opcode? ≠ some o := by
      intro o hd e he heq
      rw [List.filterMap_cons_some hd, List.nodup_cons] at hnodup
      exact hnodup.1 (List.mem_filterMap.2 ⟨e, he, heq⟩)
    rcases List.mem_cons.1 hc with rfl | hc
    · have hrest : cs.filter (·.opcode? == some opcode) = [] := by
        rw [List.filter_eq_nil_iff]
        intro e he
        simpa using hnone ho e he
      simp [ho, hrest]
    · have hd : d.opcode? ≠ some opcode := fun hd ↦ hnone hd c hc ho
      have htail : (cs.filterMap Command.opcode?).Nodup := by
        cases hopcode : d.opcode? with
        | none => rwa [List.filterMap_cons_none hopcode] at hnodup
        | some o =>
          rw [List.filterMap_cons_some hopcode] at hnodup
          exact (List.nodup_cons.1 hnodup).2
      simp [hd, filter_opcode htail hc ho]

/-- A built-in command is the only one for its operation code. -/
theorem builtin_unique {c : Command} (hc : c ∈ builtinCommands) {opcode : String}
    (ho : c.opcode? = some opcode) : builtin.visibleFor opcode = [c] := by
  have hnodup : (builtinCommands.filterMap Command.opcode?).Nodup := by decide +kernel
  have hvisible : ∀ c ∈ builtinCommands, c.hidden = false := by decide +kernel
  have hfilter : builtinCommands.filter (fun c ↦ c.opcode? == some opcode && !c.hidden) = [c] := by
    rw [← filter_opcode hnodup hc ho]
    exact List.filter_congr fun d hd ↦ by simp [hvisible d hd]
  exact List.perm_singleton.1 (hfilter ▸ values_builtin_perm.filter _)

/-- A built-in command answers to its name. -/
theorem builtin_resolve {c : Command} (hc : c ∈ builtinCommands) :
    builtin.resolve? c.name = some c := by
  have hnormal : ∀ c ∈ builtinCommands, normalize c.name = c.name := by decide +kernel
  have hget : builtin.get? c.name = some c :=
    Dict.mem_entries_iff.1 (entries_builtin_perm.mem_iff.2 (List.mem_map_of_mem hc))
  rw [resolve?, hnormal c hc, hget]

/-- The built-in catalog is regular. -/
theorem builtin_isRegular : builtin.IsRegular where
  distinct := builtin_hasDistinctSlots
  resolve c hc := builtin_resolve (values_builtin_perm.mem_iff.1 hc)
  regular c hc := by
    have hall : ∀ c ∈ builtinCommands, c.IsRegular := by decide +kernel
    exact hall c (values_builtin_perm.mem_iff.1 hc)
  unique c hc opcode ho := builtin_unique (values_builtin_perm.mem_iff.1 hc) ho
  essential c hc := by
    have hall : ∀ c ∈ essential, c ∈ builtinCommands := by decide +kernel
    exact values_builtin_perm.mem_iff.2 (hall c hc)

/-! ### What the catalog answers -/

/-- The word for a kind of command is that of a command of this kind. -/
theorem exists_keyword {catalog : Catalog} {c : Command} (hc : c ∈ catalog.commands.values)
    (hidden : c.hidden = false) :
    ∃ d ∈ catalog.commands.values, d.kind = c.kind ∧ catalog.keyword? c.kind = some d.name := by
  have hsome : (catalog.commands.values.find? fun d ↦ d.kind == c.kind && !d.hidden).isSome := by
    rw [List.find?_isSome]
    exact ⟨c, hc, by simp [hidden]⟩
  obtain ⟨d, hd⟩ := Option.isSome_iff_exists.1 hsome
  have hkind := List.find?_some hd
  simp only [Bool.and_eq_true, beq_iff_eq] at hkind
  exact ⟨d, List.mem_of_find?_eq_some hd, hkind.1, by rw [Catalog.keyword?, hd]; rfl⟩

namespace IsRegular

variable {catalog : Catalog} (h : catalog.IsRegular) {c d : Command} {opcode : String}

include h

/-- The command for an operation code is found whatever kind is preferred. -/
theorem commandFor? (hc : c ∈ catalog.commands.values) (ho : c.opcode? = some opcode)
    (kind : CommandKind) : catalog.commandFor? opcode kind = some c := by
  rw [Catalog.commandFor?, h.unique c hc opcode ho]
  cases hk : c.kind == kind <;> simp [hk]

/-- An expression is found under its operation code. -/
theorem expressionFor? (hc : c ∈ catalog.commands.values) (ho : c.opcode? = some opcode)
    (hk : c.kind.isExpression = true) : catalog.expressionFor? opcode = some c := by
  rw [Catalog.expressionFor?, h.commandFor? hc ho]
  simp [hk]

/-- The block tells the command. -/
theorem eq_of_opcode (hc : c ∈ catalog.commands.values) (hd : d ∈ catalog.commands.values)
    (hco : c.opcode? = some opcode) (hdo : d.opcode? = some opcode) : c = d := by
  have hcd := (h.unique c hc opcode hco).symm.trans (h.unique d hd opcode hdo)
  exact (List.cons.inj hcd).1

end IsRegular

end Catalog

end BlockScript

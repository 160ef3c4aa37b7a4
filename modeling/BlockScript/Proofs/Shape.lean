import BlockScript.Proofs.Regular
import BlockScript.Proofs.Sheet

/-!
# The shape of what was read

Reading gives trees of a particular shape: each block is the block of a command, it has the fields
of that command, and its slots are the inputs of the command in their order, followed by the
sub-chains of a nesting block. `Chain.IsValue` and `Chain.IsBody` say this for expressions and for
the statements of a script, `Slots.Fill` for the slots of a block. It is kept by every line
(`Sheet.IsShaped`), so it holds of the scripts that the lines of a target give
(`Sheet.isShaped_of_read`).
-/

namespace BlockScript

/-- Whether a block compares two values. -/
def Opcode.isComparison (opcode : String) : Bool :=
  opcode == greater || opcode == less || opcode == equals

/-- Whether a command of this kind makes a block that stands in the middle of a script. -/
def CommandKind.isStatement : CommandKind → Bool
  | stack => true
  | nesting => true
  | call => true
  | _ => false

variable {α : Type}

/-! ### Blocks -/

/-- The node says what a command says: its operation code and its fields, where the symbols that it
names have proper names. -/
structure Node.Fits (c : Command) (node : Node) : Prop where
  opcode : node.opcode = c.opcode
  fields : node.fields.map (fun f ↦ (f.name, f.table)) = c.fields.map fun s ↦ (s.name, s.symbols)
  asked : ∀ r ∈ node.asked, Text.isProper r.2 = true
  procedure : node.procedure.isSome = (c.kind == .call)

/-- The constant and the shadow of a slot are those of an input. A text that could be taken for an
expression stands only next to a comparison, which writes it in quotes, and only an operand of a
comparison has no constant under its value. -/
def InputSpec.Admits (spec : InputSpec) (compares : Bool) (constant : Option Literal)
    (value shadow : Chain α) : Prop :=
  match spec.kind with
  | .menu => constant = none ∧ ∃ tag opcode field, spec.menuOpcode = some opcode ∧
      shadow = .cons tag { opcode, fields := [field] } .nil .nil ∧ field.table = spec.symbols ∧
      Text.isProper field.text = true
  | .boolean => constant = none ∧ shadow = .nil ∧ value ≠ .nil
  | kind => shadow = .nil ∧ (compares = false → constant.isSome = true) ∧
      (value = .nil → ∃ literal, constant = some literal ∧
        (kind = .text → compares = false → spec.isExpression literal.text = false))

/-- The names after one of them. -/
def namesAfter (input : String) (names : List String) : List String :=
  (names.dropWhile (· != input)).drop 1

section

variable (catalog : Catalog) (target : TargetKind)

mutual

/-- The chain is the block of an expression, or empty. -/
def Chain.IsValue : Chain α → Prop
  | .nil => True
  | .cons _ node slots rest => rest = .nil ∧ ∃ c ∈ catalog.commands.values,
      c.kind.isExpression = true ∧ c.isAvailableOn target = true ∧ node.Fits c ∧
      slots.Fill (Opcode.isComparison c.opcode) c.inputs []

/-- The blocks of the chain are statements. -/
def Chain.IsBody : Chain α → Prop
  | .nil => True
  | .cons _ node slots rest => (∃ c ∈ catalog.commands.values,
      c.kind.isStatement = true ∧ c.isAvailableOn target = true ∧ node.Fits c ∧
      slots.Fill (Opcode.isComparison c.opcode) c.inputs
        (if c.kind = .nesting then c.stackNames else [])) ∧ rest.IsBody

/-- The slots are these inputs, followed by some of these sub-chains. -/
def Slots.Fill (compares : Bool) : List InputSpec → List String → Slots α → Prop
  | [], _, .nil => True
  | [], names, .cons input constant value shadow rest =>
      (constant = none ∧ shadow = .nil ∧ value ≠ .nil ∧ input ∈ names) ∧ value.IsBody ∧
        rest.Fill compares [] (namesAfter input names)
  | spec :: specs, names, .cons input constant value shadow rest =>
      (input = spec.name ∧ spec.Admits compares constant value shadow) ∧ value.IsValue ∧
        rest.Fill compares specs names
  | _ :: _, _, .nil => False

end

/-- The chain is a script: a hat or the definition of a procedure, and statements. -/
def Chain.IsScript : Chain α → Prop
  | .nil => False
  | .cons _ node slots rest =>
    ((∃ c ∈ catalog.commands.values, c.kind = .hat ∧ c.isAvailableOn target = true ∧ node.Fits c ∧
      slots.Fill catalog target (Opcode.isComparison c.opcode) c.inputs []) ∨
      (node = { opcode := Opcode.definition } ∧ ∃ tag name, Text.isProper name = true ∧
        slots = Content.slot { shadow := Sheet.prototype tag name } "custom_block")) ∧
      rest.IsBody catalog target

end

variable {catalog : Catalog} {target : TargetKind}

/-! ### Growing slots and chains -/

/-- More names at the end come after the same name. -/
theorem namesAfter_append {input : String} {names : List String} (h : input ∈ names)
    (more : List String) : namesAfter input (names ++ more) = namesAfter input names ++ more := by
  have hne : names.dropWhile (· != input) ≠ [] := by
    rw [Ne, List.dropWhile_eq_nil_iff]
    intro hall
    simpa using hall input h
  obtain ⟨n, ns, hns⟩ := List.exists_cons_of_ne_nil hne
  rw [namesAfter, namesAfter, List.dropWhile_append, hns]
  rfl

namespace Slots

/-- Sub-chains with more names to come still fill a block. -/
theorem Fill.append_names {compares : Bool} : ∀ {specs : List InputSpec} {names : List String}
    {s : Slots α}, s.Fill catalog target compares specs names → ∀ more : List String,
    s.Fill catalog target compares specs (names ++ more)
  | [], _, .nil, _, _ => trivial
  | [], _, .cons .., ⟨⟨hc, hs, hv, hmem⟩, hbody, hrest⟩, more => by
    refine ⟨⟨hc, hs, hv, List.mem_append_left _ hmem⟩, hbody, ?_⟩
    rw [namesAfter_append hmem]
    exact hrest.append_names more
  | _ :: _, _, .cons .., ⟨h, hv, hrest⟩, more => ⟨h, hv, hrest.append_names more⟩

/-- A statement in a sub-chain of the next name goes to the end of the slots. -/
theorem Fill.append_branch {compares : Bool} {input : String} {value : Chain α}
    (hbody : value.IsBody catalog target) (hne : value ≠ .nil) : ∀ {specs : List InputSpec}
    {names : List String} {s : Slots α}, s.Fill catalog target compares specs names →
    (s.append (.cons input none value .nil .nil)).Fill catalog target compares specs
      (names ++ [input])
  | [], _, .nil, _ =>
    ⟨⟨rfl, rfl, hne, List.mem_append_right _ (List.mem_singleton.2 rfl)⟩, hbody, trivial⟩
  | [], _, .cons .., ⟨⟨hc, hs, hv, hmem⟩, hfirst, hrest⟩ => by
    refine ⟨⟨hc, hs, hv, List.mem_append_left _ hmem⟩, hfirst, ?_⟩
    rw [namesAfter_append hmem]
    exact hrest.append_branch hbody hne
  | _ :: _, _, .cons .., ⟨h, hv, hrest⟩ => ⟨h, hv, hrest.append_branch hbody hne⟩

/-- A sub-chain comes after the ones before it. -/
theorem Fill.branch {compares : Bool} {input : String} {c : Chain α}
    (hc : c.IsBody catalog target) {specs : List InputSpec} {names : List String} {s : Slots α}
    (hs : s.Fill catalog target compares specs names) :
    (s.branch input c).Fill catalog target compares specs (names ++ [input]) := by
  cases c with
  | nil => exact hs.append_names _
  | cons => exact hs.append_branch hc nofun

/-- A block without inputs and sub-chains has no slots. -/
theorem Fill.eq_nil {compares : Bool} {s : Slots α} (h : s.Fill catalog target compares [] []) :
    s = .nil := by
  cases s with
  | nil => rfl
  | cons => exact absurd h.1.2.2.2 List.not_mem_nil

/-- The first of the sub-chains, which may be missing. -/
theorem Fill.exists_first {compares : Bool} {name : String} {names : List String}
    (hname : name ∉ names) {back : Slots α}
    (h : back.Fill catalog target compares [] (name :: names)) : ∃ value rest,
      back = (Slots.nil.branch name value).append rest ∧
        rest.Fill catalog target compares [] names := by
  cases back with
  | nil => exact ⟨.nil, .nil, rfl, trivial⟩
  | cons input constant value shadow rest =>
    obtain ⟨⟨rfl, rfl, hvalue, hmem⟩, hbody, hrest⟩ := h
    by_cases hinput : input = name
    · subst hinput
      have hafter : namesAfter input (input :: names) = names := by simp [namesAfter]
      rw [hafter] at hrest
      refine ⟨value, rest, ?_, hrest⟩
      cases value with
      | nil => exact absurd rfl hvalue
      | cons => rfl
    · have hafter : namesAfter input (name :: names) = namesAfter input names := by
        simp [namesAfter, Ne.symm hinput]
      rw [hafter] at hrest
      exact ⟨.nil, _, rfl, ⟨rfl, rfl, hvalue,
        (List.mem_cons.1 hmem).resolve_left hinput⟩, hbody, hrest⟩

end Slots

namespace Chain

/-- Statements below statements are statements. -/
theorem isBody_append : ∀ {a b : Chain α}, a.IsBody catalog target → b.IsBody catalog target →
    (a.append b).IsBody catalog target
  | .nil, _, _, hb => hb
  | .cons .., _, ⟨h, ha⟩, hb => ⟨h, isBody_append ha hb⟩

/-- Statements below a script go on with the script. -/
theorem isScript_append : ∀ {a b : Chain α}, a.IsScript catalog target →
    b.IsBody catalog target → (a.append b).IsScript catalog target
  | .cons .., _, ⟨h, ha⟩, hb => ⟨h, isBody_append ha hb⟩

end Chain

/-! ### Trees with tags -/

/-- A chain is empty if it is without its tags. -/
theorem Chain.erase_eq_nil {c : Chain α} : c.erase = .nil ↔ c = .nil := by
  cases c <;> simp [Chain.erase]

/-- Slots are none if they are without their tags. -/
theorem Slots.erase_eq_nil {s : Slots α} : s.erase = .nil ↔ s = .nil := by
  cases s <;> simp [Slots.erase]

/-- A chain that is one bare node without its tags is one with some tag. -/
theorem Chain.erase_eq_single : ∀ {c : Chain α} {node : Node},
    c.erase = .cons () node .nil .nil → ∃ tag, c = .cons tag node .nil .nil
  | .cons tag _ _ _, _, h => by
    obtain ⟨-, rfl, hslots, hrest⟩ := Chain.cons.inj h
    rw [Slots.erase_eq_nil.1 hslots, Chain.erase_eq_nil.1 hrest]
    exact ⟨tag, rfl⟩

/-- What an input admits does not depend on tags. -/
theorem InputSpec.Admits.of_erase {spec : InputSpec} {compares : Bool}
    {constant : Option Literal} {value shadow : Chain α}
    (h : spec.Admits compares constant value.erase shadow.erase) :
    spec.Admits compares constant value shadow := by
  unfold InputSpec.Admits at h ⊢
  cases hkind : spec.kind
  case menu =>
    simp only [hkind] at h ⊢
    obtain ⟨hconstant, _, opcode, field, hopcode, hshadow, htable, htext⟩ := h
    obtain ⟨tag, rfl⟩ := Chain.erase_eq_single hshadow
    exact ⟨hconstant, tag, opcode, field, hopcode, rfl, htable, htext⟩
  all_goals simpa only [hkind, ne_eq, Chain.erase_eq_nil] using h

mutual

/-- The shape of a tree does not depend on its tags. -/
theorem Chain.IsValue.of_erase : ∀ {c : Chain α}, c.erase.IsValue catalog target →
    c.IsValue catalog target
  | .nil, _ => trivial
  | .cons .., ⟨hrest, c, hmem, hkind, havailable, hnode, hslots⟩ =>
    ⟨Chain.erase_eq_nil.1 hrest, c, hmem, hkind, havailable, hnode, hslots.of_erase⟩

/-- Whether a chain is made of statements does not depend on tags. -/
theorem Chain.IsBody.of_erase : ∀ {c : Chain α}, c.erase.IsBody catalog target →
    c.IsBody catalog target
  | .nil, _ => trivial
  | .cons .., ⟨⟨c, hmem, hkind, havailable, hnode, hslots⟩, hrest⟩ =>
    ⟨⟨c, hmem, hkind, havailable, hnode, hslots.of_erase⟩, hrest.of_erase⟩

/-- Whether slots fill a command does not depend on tags. -/
theorem Slots.Fill.of_erase {compares : Bool} : ∀ {specs : List InputSpec} {names : List String}
    {s : Slots α}, s.erase.Fill catalog target compares specs names →
      s.Fill catalog target compares specs names
  | [], _, .nil, _ => trivial
  | [], _, .cons .., ⟨⟨hconstant, hshadow, hvalue, hmem⟩, hbody, hrest⟩ =>
    ⟨⟨hconstant, Chain.erase_eq_nil.1 hshadow, mt Chain.erase_eq_nil.2 hvalue, hmem⟩,
      hbody.of_erase, hrest.of_erase⟩
  | _ :: _, _, .cons .., ⟨⟨hname, hadmits⟩, hvalue, hrest⟩ =>
    ⟨⟨hname, hadmits.of_erase⟩, hvalue.of_erase, hrest.of_erase⟩
  | _ :: _, _, .nil, h => h.elim

end

/-- The slots of a definition hold nothing but its prototype. -/
theorem Slots.eq_of_erase_definition {name : String} : ∀ {slots : Slots α},
    slots.erase = Content.slot { shadow := Sheet.prototype () name } "custom_block" →
      ∃ tag, slots = Content.slot { shadow := Sheet.prototype tag name } "custom_block"
  | .cons _ _ _ _ _, h => by
    obtain ⟨rfl, rfl, hvalue, hshadow, hrest⟩ := Slots.cons.inj h
    obtain ⟨tag, rfl⟩ := Chain.erase_eq_single hshadow
    rw [Chain.erase_eq_nil.1 hvalue, Slots.erase_eq_nil.1 hrest]
    exact ⟨tag, rfl⟩

/-- Whether a chain is a script does not depend on tags. -/
theorem Chain.IsScript.of_erase : ∀ {c : Chain α}, c.erase.IsScript catalog target →
    c.IsScript catalog target
  | .cons _ _ slots _, ⟨.inl ⟨c, hmem, hkind, havailable, hnode, hslots⟩, hrest⟩ =>
    ⟨.inl ⟨c, hmem, hkind, havailable, hnode, hslots.of_erase⟩, hrest.of_erase⟩
  | .cons _ _ slots _, ⟨.inr ⟨hnode, _, name, hname, hslots⟩, hrest⟩ => by
    obtain ⟨tag, htag⟩ := Slots.eq_of_erase_definition hslots
    exact ⟨.inr ⟨hnode, tag, name, hname, htag⟩, hrest.of_erase⟩

/-! ### Expressions -/

namespace Reading

variable (catalog target) in
/-- The reader gives expressions. -/
def GivesValues (read : Reader) : Prop :=
  ∀ text t, read text = .ok t → t.IsValue catalog target ∧ t ≠ .nil

section

variable (hcat : catalog.IsRegular) {read : Reader} (hread : GivesValues catalog target read)

include hread in
/-- An operand holds a value or else a constant, and no shadow. -/
theorem operand_shape {text : String} {content : Content Unit}
    (h : operand read text = .ok content) : content.shadow = .nil ∧
      content.value.IsValue catalog target ∧ (content.value = .nil → content.constant.isSome) := by
  unfold operand at h
  split at h
  · obtain ⟨t, ht, h⟩ := bind_eq_ok.1 h
    cases h
    obtain ⟨hvalue, hne⟩ := hread _ _ ht
    exact ⟨rfl, hvalue, fun hnil ↦ absurd hnil hne⟩
  · cases h
    exact ⟨rfl, trivial, fun _ ↦ rfl⟩

include hcat in
/-- A comparison of two operands is an expression. -/
theorem isValue_comparison {opcode : String} (hopcode : Opcode.isComparison opcode = true)
    {first second : Content Unit} (hfirst : first.shadow = .nil ∧
      first.value.IsValue catalog target ∧ (first.value = .nil → first.constant.isSome))
    (hsecond : second.shadow = .nil ∧
      second.value.IsValue catalog target ∧ (second.value = .nil → second.constant.isSome)) :
    Chain.IsValue catalog target
      (block { opcode } ((first.slot "OPERAND1").append (second.slot "OPERAND2"))) := by
  obtain ⟨name, hmem, havailable⟩ : ∃ name, Command.comparison name opcode ∈ Catalog.essential ∧
      (Command.comparison name opcode).isAvailableOn target = true := by
    simp only [Opcode.isComparison, Bool.or_eq_true, beq_iff_eq] at hopcode
    rcases hopcode with (rfl | rfl) | rfl
    · exact ⟨"gt", by decide, by cases target <;> decide⟩
    · exact ⟨"lt", by decide, by cases target <;> decide⟩
    · exact ⟨"equals", by decide, by cases target <;> decide⟩
  refine ⟨rfl, _, hcat.essential _ hmem, rfl, havailable, ⟨rfl, rfl, by simp [Node.asked], rfl⟩, ?_⟩
  have hadmits : ∀ (spec : InputSpec) (content : Content Unit), spec.kind = .text →
      content.shadow = .nil → (content.value = .nil → content.constant.isSome) →
        spec.Admits true content.constant content.value content.shadow := by
    intro spec content hkind hshadow hconstant
    unfold InputSpec.Admits
    rw [hkind]
    refine ⟨hshadow, (by cases ·), fun hnil ↦ ?_⟩
    obtain ⟨literal, hliteral⟩ := Option.isSome_iff_exists.1 (hconstant hnil)
    exact ⟨literal, hliteral, fun _ ↦ (by cases ·)⟩
  have hcompares : Opcode.isComparison (Command.comparison name opcode).opcode = true := hopcode
  rw [hcompares]
  exact ⟨⟨rfl, hadmits _ first rfl hfirst.1 hfirst.2.2⟩, hfirst.2.1,
    ⟨rfl, hadmits _ second rfl hsecond.1 hsecond.2.2⟩, hsecond.2.1, trivial⟩

include hcat hread in
/-- A comparison is an expression. -/
theorem comparison_shape {opcode left right : String} (hopcode : Opcode.isComparison opcode = true)
    {t : Tree} (h : comparison read opcode left right = .ok t) :
    t.IsValue catalog target ∧ t ≠ .nil := by
  obtain ⟨first, hfirst, h⟩ := bind_eq_ok.1 h
  obtain ⟨second, hsecond, h⟩ := bind_eq_ok.1 h
  cases h
  exact ⟨isValue_comparison hcat hopcode (operand_shape hread hfirst) (operand_shape hread hsecond),
    nofun⟩

include hcat in
/-- A negated expression is an expression. -/
theorem isValue_negation {t : Tree} (h : t.IsValue catalog target ∧ t ≠ .nil) :
    (negation t).IsValue catalog target ∧ negation t ≠ .nil := by
  refine ⟨⟨rfl, Command.negation, hcat.essential _ (by decide), rfl, by cases target <;> decide,
    ⟨rfl, rfl, by simp [Node.asked], rfl⟩, ?_⟩, nofun⟩
  exact ⟨⟨rfl, rfl, rfl, h.2⟩, h.1, trivial⟩

include hcat hread in
/-- A comparison in infix form is an expression. -/
theorem comparisonOf_shape {c : Comparison} {t : Tree} (h : comparisonOf read c = .ok t) :
    t.IsValue catalog target ∧ t ≠ .nil := by
  unfold comparisonOf at h
  cases hrelation : c.relation <;> simp only [hrelation] at h
  case greater => exact comparison_shape hcat hread rfl h
  case less => exact comparison_shape hcat hread rfl h
  case equal => exact comparison_shape hcat hread rfl h
  case sameAs => exact comparison_shape hcat hread rfl h
  all_goals
    obtain ⟨inner, hinner, rfl⟩ := map_eq_ok.1 h
    exact isValue_negation hcat (comparison_shape hcat hread rfl hinner)

include hcat hread in
/-- A condition is an expression. -/
theorem condition_shape {raw : String} {t : Tree} (h : condition read raw = .ok t) :
    t.IsValue catalog target ∧ t ≠ .nil := by
  unfold condition at h
  dsimp only at h
  split at h
  · exact hread _ _ h
  · split at h
    · exact comparisonOf_shape hcat hread h
    · cases h
      refine ⟨isValue_comparison hcat rfl ⟨rfl, trivial, fun _ ↦ rfl⟩
        ⟨rfl, trivial, fun _ ↦ rfl⟩, nofun⟩

/-- The constant of a text slot is no expression. -/
theorem isExpression_orElse {spec : InputSpec} (hspec : spec.IsRegular) (hkind : spec.kind = .text)
    {raw : String} (hraw : spec.isExpression raw = false) :
    spec.isExpression (Text.orElse (Text.trim raw) spec.defaultText) = false := by
  unfold Text.orElse
  split
  · exact hspec.literal
  · next hne =>
    have hempty : raw.isEmpty = false := by
      rw [Bool.eq_false_iff]
      intro hempty
      rw [String.isEmpty_iff] at hempty
      subst hempty
      exact hne rfl
    simp only [InputSpec.isExpression, hempty, hspec.allows, hkind] at hraw ⊢
    simpa [Text.trim] using fun _ ↦ hraw

/-- The choice of a menu is a proper text, because the default is one. -/
theorem isProper_menuText {spec : InputSpec} (hspec : spec.IsRegular) (hkind : spec.kind = .menu)
    (raw : String) : Text.isProper (spec.menuText raw).1 = true := by
  obtain ⟨-, hoptions, hupper, hdefault⟩ := hspec.menu hkind
  have htext : (spec.menuText raw).1 = Text.nameOr raw spec.defaultText := by
    simp [InputSpec.menuText, hoptions, hupper, Text.nameOr, Text.orElse]
  rw [htext]
  exact Text.isProper_nameOr raw hdefault

/-- The fallback of a menu is what its input admits, and no value. -/
theorem menuFallback_shape {spec : InputSpec} (hspec : spec.IsRegular) (hkind : spec.kind = .menu)
    (raw : String) (compares : Bool) (value : Tree) :
    spec.Admits compares (menuFallback spec raw).constant value (menuFallback spec raw).shadow ∧
      (menuFallback spec raw).value = .nil := by
  obtain ⟨opcode, hopcode⟩ := Option.isSome_iff_exists.1 (hspec.menu hkind).1
  have hproper := isProper_menuText hspec hkind raw
  simp only [menuFallback, hopcode, InputSpec.Admits, hkind]
  refine ⟨⟨trivial, (), opcode, _, rfl, rfl, rfl, ?_⟩, trivial⟩
  unfold fieldFor
  dsimp only
  split
  · rw [Text.nameOr_of_isProper hproper]
    exact hproper
  · exact hproper

include hread in
/-- The content of a menu is what its input admits. -/
theorem menuSlot_shape {spec : InputSpec} (hspec : spec.IsRegular) (hkind : spec.kind = .menu)
    {raw : String} {content : Content Unit} (compares : Bool)
    (h : menuSlot read spec raw = .ok content) :
    spec.Admits compares content.constant content.value content.shadow ∧
      content.value.IsValue catalog target := by
  unfold menuSlot at h
  split at h
  · obtain ⟨t, ht, h⟩ := bind_eq_ok.1 h
    cases h
    exact ⟨(menuFallback_shape hspec hkind _ compares t).1, (hread _ _ ht).1⟩
  · cases h
    obtain ⟨hadmits, hnil⟩ := menuFallback_shape hspec hkind raw compares .nil
    rw [hnil]
    exact ⟨hadmits, trivial⟩

include hread in
/-- The content of an ordinary slot is what its input admits. -/
theorem literalSlot_shape {spec : InputSpec} (hspec : spec.IsRegular) (hmenu : spec.kind ≠ .menu)
    (hboolean : spec.kind ≠ .boolean) {command raw : String} {content : Content Unit}
    (compares : Bool) (h : literalSlot read command spec raw = .ok content) :
    spec.Admits compares content.constant content.value content.shadow ∧
      content.value.IsValue catalog target := by
  have hadmits : ∀ (literal : Literal) (value : Tree), (value = .nil → spec.kind = .text →
      compares = false → spec.isExpression literal.text = false) →
        spec.Admits compares (some literal) value .nil := by
    intro literal value hvalue
    unfold InputSpec.Admits
    split
    · next hkind => exact absurd hkind hmenu
    · next hkind => exact absurd hkind hboolean
    · exact ⟨rfl, fun _ ↦ rfl, fun hnil ↦ ⟨literal, rfl, hvalue hnil⟩⟩
  unfold literalSlot at h
  split at h
  · obtain ⟨t, ht, h⟩ := bind_eq_ok.1 h
    cases h
    obtain ⟨hvalue, hne⟩ := hread _ _ ht
    exact ⟨hadmits _ _ fun hnil ↦ absurd hnil hne, hvalue⟩
  · next hraw =>
    cases h
    refine ⟨hadmits _ _ fun _ hkind _ ↦ ?_, trivial⟩
    simp only [InputSpec.literalText, hkind, SlotKind.literal, Literal.ofText]
    exact isExpression_orElse hspec hkind (by simpa using hraw)

include hcat hread in
/-- The content of any input is what the input admits. -/
theorem input_shape {spec : InputSpec} (hspec : spec.IsRegular) {command : String}
    {args : Arguments} {content : Content Unit} (compares : Bool)
    (h : input read command args spec = .ok content) :
    spec.Admits compares content.constant content.value content.shadow ∧
      content.value.IsValue catalog target := by
  by_cases hmenu : spec.kind = .menu
  · simp only [input, hmenu] at h
    exact menuSlot_shape hread hspec hmenu compares h
  by_cases hboolean : spec.kind = .boolean
  · simp only [input, hboolean] at h
    obtain ⟨t, ht, rfl⟩ := map_eq_ok.1 h
    obtain ⟨hvalue, hne⟩ := condition_shape hcat hread ht
    refine ⟨?_, hvalue⟩
    simp only [InputSpec.Admits, hboolean]
    exact ⟨trivial, trivial, hne⟩
  · have hslot : literalSlot read command spec (inputText spec args) = .ok content := by
      unfold input at h
      split at h
      · next hkind => exact absurd hkind hmenu
      · next hkind => exact absurd hkind hboolean
      · exact h
    exact literalSlot_shape hread hspec hmenu hboolean compares hslot

include hcat hread in
/-- The contents of all inputs fill the command in their order. -/
theorem inputs_shape {command : String} {args : Arguments} (compares : Bool) :
    ∀ {specs : List InputSpec} {slots : Slots Unit}, (∀ spec ∈ specs, spec.IsRegular) →
      inputs read command args specs = .ok slots →
        slots.Fill catalog target compares specs []
  | [], slots, _, h => by
    cases h
    trivial
  | spec :: specs, slots, hspecs, h => by
    obtain ⟨content, hcontent, h⟩ := bind_eq_ok.1 h
    obtain ⟨rest, hrest, h⟩ := bind_eq_ok.1 h
    cases h
    obtain ⟨hadmits, hvalue⟩ := input_shape hcat hread (hspecs spec List.mem_cons_self) compares
      hcontent
    exact ⟨⟨rfl, hadmits⟩, hvalue, inputs_shape compares
      (fun s hs ↦ hspecs s (List.mem_cons_of_mem _ hs)) hrest⟩

/-- The fields of a command, read from arguments. -/
theorem fits_fields {c : Command} (hc : c.IsRegular) (args : Arguments) {procedure : Option String}
    (hprocedure : ∀ name ∈ procedure, Text.isProper name = true)
    (hcall : procedure.isSome = (c.kind == .call)) :
    Node.Fits c { opcode := c.opcode, fields := c.fields.map (field args), procedure } where
  opcode := rfl
  fields := by simp [field, fieldFor]
  asked r hr := by
    simp only [Node.asked, List.mem_append, List.mem_flatMap, List.mem_map, Option.mem_toList] at hr
    rcases hr with ⟨f, ⟨spec, hspec, rfl⟩, hr⟩ | ⟨name, hname, rfl⟩
    · simp only [FieldText.asked, field, fieldFor, List.mem_map, Option.mem_toList] at hr
      obtain ⟨kind, hkind, rfl⟩ := hr
      have hsome : spec.symbols.isSome = true := Option.isSome_iff_exists.2 ⟨kind, hkind⟩
      simp only [hsome, if_true]
      exact Text.isProper_nameOr _ (hc.fields spec hspec hsome).2.2
    · exact hprocedure name hname
  procedure := hcall

end

/-- Reading an expression gives one. -/
theorem expression_givesValues (hcat : catalog.IsRegular) (line : Nat) : ∀ bound : Nat,
    GivesValues catalog target (expression catalog target line bound)
  | 0 => fun _ _ h ↦ by cases h
  | bound + 1 => by
    intro text t h
    have hread := expression_givesValues hcat line bound
    simp only [expression, call] at h
    split at h
    · cases h
    · split at h
      · cases h
      · next command hcommand =>
        obtain ⟨slots, hslots, h⟩ := bind_eq_ok.1 h
        cases h
        obtain ⟨hresolve, hkind, havailable⟩ := Build.expressionCommand_eq_ok.1 hcommand
        have hmem := Catalog.mem_values_of_resolve? hresolve
        have hregular := hcat.regular command hmem
        have hcall : command.kind ≠ .call := by
          intro hcall
          rw [hcall] at hkind
          cases hkind
        exact ⟨⟨rfl, command, hmem, hkind, havailable,
          fits_fields hregular _ nofun (beq_false_of_ne hcall).symm,
          inputs_shape hcat hread _ hregular.inputs hslots⟩, nofun⟩

end Reading

/-! ### Scripts -/

variable (catalog target) in
/-- A nesting block that is still open becomes a statement when it is closed, also after an
else. -/
structure Layer.IsOpen (l : Layer α) : Prop where
  fill : ∀ c : Chain α, c.IsBody catalog target →
    (Chain.cons l.tag l.node (l.slots.branch l.branches.active.input c) .nil).IsBody catalog target
  fillElse : ∀ (l' : Layer α) (c c' : Chain α), c.IsBody catalog target →
    c'.IsBody catalog target → l.enterElse c = .ok l' →
      (Chain.cons l'.tag l'.node (l'.slots.branch l'.branches.active.input c') .nil).IsBody
        catalog target

variable (catalog target) in
/-- An open script with its layers: the innermost chain holds statements, and the outermost one is
a script. -/
def OpenScript.IsShaped : List (Layer α) → Chain α → Prop
  | [], c => c.IsScript catalog target
  | l :: ls, c => c.IsBody catalog target ∧ l.IsOpen catalog target ∧ IsShaped ls l.before

variable (catalog target) in
/-- All scripts of a sheet have the shape of scripts. -/
structure Sheet.IsShaped (σ : Sheet α) : Prop where
  closed : ∀ c ∈ σ.closed, c.IsScript catalog target
  current : ∀ o ∈ σ.current, OpenScript.IsShaped catalog target o.layers o.chain
  declared : ∀ r ∈ σ.declared, Text.isProper r.2 = true

namespace OpenScript

/-- A chain added to an open script goes on with its innermost chain. -/
theorem IsShaped.append {c : Chain α} (hc : c.IsBody catalog target) :
    ∀ {ls : List (Layer α)} {chain : Chain α}, IsShaped catalog target ls chain →
      IsShaped catalog target ls (chain.append c)
  | [], _, h => Chain.isScript_append h hc
  | _ :: _, _, ⟨h, hl, hls⟩ => ⟨Chain.isBody_append h hc, hl, hls⟩

/-- Closing the innermost nesting block. -/
theorem IsShaped.fill {l : Layer α} {ls : List (Layer α)} {c : Chain α}
    (h : IsShaped catalog target (l :: ls) c) : IsShaped catalog target ls (l.fill c) :=
  h.2.2.append (h.2.1.fill c h.1)

/-- An open script is a script when all of its nesting blocks are closed. -/
theorem IsShaped.whole : ∀ {ls : List (Layer α)} {c : Chain α}, IsShaped catalog target ls c →
    (⟨ls, c⟩ : OpenScript α).whole.IsScript catalog target
  | [], _, h => h
  | _ :: _, _, h => h.fill.whole

end OpenScript

/-- A nesting command is one of the two conditionals, or it has a single sub-chain. -/
theorem Catalog.IsRegular.nesting_cases (hcat : catalog.IsRegular) {c : Command}
    (hmem : c ∈ catalog.commands.values) (hkind : c.kind = .nesting) :
    c = .ifThen ∨ c = .ifElse ∨ c.opcode ≠ Opcode.ifElse ∧
      ∃ name, c.stackNames = [name] ∧ Branches.ofCommand c = .single ⟨name, none⟩ := by
  have hregular := hcat.regular c hmem
  have hopcode : c.opcode? = some c.opcode := hregular.opcode?_eq (by rw [hkind]; rfl)
  by_cases hthen : c.opcode = Opcode.ifThen
  · exact .inl (hcat.eq_of_opcode hmem (hcat.essential _ (by decide)) hopcode (by rw [hthen]; rfl))
  by_cases helse : c.opcode = Opcode.ifElse
  · exact .inr (.inl (hcat.eq_of_opcode hmem (hcat.essential _ (by decide)) hopcode
      (by rw [helse]; rfl)))
  · obtain ⟨name, hname⟩ := List.length_eq_one_iff.1 (hregular.branch hkind hthen helse)
    exact .inr (.inr ⟨helse, name, hname, by simp [Branches.ofCommand, hname, hthen]⟩)

/-- The block of a nesting command, as long as it is open. -/
theorem Layer.isOpen_of_command (hcat : catalog.IsRegular) {c : Command}
    (hmem : c ∈ catalog.commands.values) (hkind : c.kind = .nesting)
    (havailable : c.isAvailableOn target = true) {node : Node} (hnode : node.Fits c)
    {slots : Slots α}
    (hslots : slots.Fill catalog target (Opcode.isComparison c.opcode) c.inputs [])
    (before : Chain α) (tag : α) (line : Nat) :
    Layer.IsOpen catalog target
      ⟨before, tag, node, slots, Branches.ofCommand c, c.name, line⟩ := by
  have hstatement : c.kind.isStatement = true := by rw [hkind]; rfl
  obtain rfl | rfl | ⟨-, name, hname, hbranches⟩ := hcat.nesting_cases hmem hkind
  · constructor
    · intro body hbody
      exact ⟨⟨_, hmem, hstatement, havailable, hnode, hslots.branch hbody⟩, trivial⟩
    · intro l' body body' hbody hbody' hl'
      cases hl'
      refine ⟨⟨Command.ifElse, hcat.essential _ (by decide), rfl, by cases target <;> decide, ?_,
        (hslots.branch hbody).branch hbody'⟩, trivial⟩
      exact ⟨rfl, hnode.fields, hnode.asked, hnode.procedure⟩
  · constructor
    · intro body hbody
      exact ⟨⟨_, hmem, hstatement, havailable, hnode,
        (hslots.branch hbody).append_names ["SUBSTACK2"]⟩, trivial⟩
    · intro l' body body' hbody hbody' hl'
      cases hl'
      exact ⟨⟨_, hmem, hstatement, havailable, hnode, (hslots.branch hbody).branch hbody'⟩, trivial⟩
  · rw [hbranches]
    constructor
    · intro body hbody
      refine ⟨⟨c, hmem, hstatement, havailable, hnode, ?_⟩, trivial⟩
      rw [if_pos hkind, hname]
      exact hslots.branch hbody
    · intro l' body body' _ _ hl'
      cases hl'

/-- There is no second else. -/
theorem Layer.IsOpen.enterElse {l l' : Layer α} {c : Chain α} (h : l.IsOpen catalog target)
    (hc : c.IsBody catalog target) (hl' : l.enterElse c = .ok l') :
    l'.IsOpen catalog target ∧ l'.before = l.before := by
  have hbranches : ∃ branches, l.branches.enterElse = .ok branches ∧ l' =
      { l with
        node := l.elseNode
        slots := l.slots.branch l.branches.active.input c
        branches } := by
    unfold Layer.enterElse at hl'
    cases hb : l.branches.enterElse with
    | error fault =>
      rw [hb] at hl'
      cases hl'
    | ok branches =>
      rw [hb] at hl'
      exact ⟨branches, rfl, (Except.ok.inj hl').symm⟩
  obtain ⟨branches, hb, rfl⟩ := hbranches
  refine ⟨⟨fun c' hc' ↦ h.fillElse _ c c' hc hc' hl', fun l'' c₁ c₂ _ _ hl'' ↦ ?_⟩, rfl⟩
  have hrepeated : branches.enterElse = .error .repeatedElse := by
    cases hl : l.branches with
    | single body => simp [hl, Branches.enterElse] at hb
    | ifThen body =>
      simp only [hl, Branches.enterElse] at hb
      cases hb
      rfl
    | ifElse body otherwise inElse =>
      cases inElse with
      | true => simp [hl, Branches.enterElse] at hb
      | false =>
        simp only [hl, Branches.enterElse] at hb
        cases hb
        rfl
  simp [Layer.enterElse, hrepeated, Except.map] at hl''

namespace Sheet

open Reading

variable {σ τ : Sheet Unit}

/-- An empty sheet has no scripts to be shaped. -/
theorem isShaped_empty : (({} : Sheet Unit)).IsShaped catalog target :=
  ⟨nofun, nofun, nofun⟩

/-- All scripts of a shaped sheet are scripts, the open one included. -/
theorem IsShaped.scripts (h : σ.IsShaped catalog target) :
    ∀ c ∈ σ.scripts, c.IsScript catalog target := by
  intro c hc
  rcases List.mem_append.1 hc with hc | hc
  · exact h.closed c hc
  · obtain ⟨o, ho, rfl⟩ := Option.map_eq_some_iff.1 (Option.mem_toList.1 hc)
    exact (h.current o ho).whole

/-- A script with a proper head may be started. -/
theorem IsShaped.start (h : σ.IsShaped catalog target) {head : Tree}
    (hhead : head.IsScript catalog target) : (σ.start head).IsShaped catalog target where
  closed := h.scripts
  current o ho := by
    obtain rfl := Option.some.inj ho
    exact hhead
  declared := h.declared

/-- An end keeps the shape of a sheet. -/
theorem IsShaped.finish (h : σ.IsShaped catalog target) {line : Nat}
    (hτ : σ.finish line = .ok τ) : τ.IsShaped catalog target := by
  unfold Sheet.finish at hτ
  split at hτ
  · next l ls c hcurrent =>
    cases hτ
    refine ⟨h.closed, fun o ho ↦ ?_, h.declared⟩
    obtain rfl := Option.some.inj ho
    exact (h.current _ hcurrent).fill
  · next c hcurrent =>
    cases hτ
    refine ⟨fun d hd ↦ ?_, nofun, h.declared⟩
    rcases List.mem_append.1 hd with hd | hd
    · exact h.closed d hd
    · obtain rfl := List.mem_singleton.1 hd
      exact h.current _ hcurrent
  · cases hτ

/-- An else keeps the shape of a sheet. -/
theorem IsShaped.enterElse (h : σ.IsShaped catalog target) {line : Nat}
    (hτ : σ.enterElse line = .ok τ) : τ.IsShaped catalog target := by
  unfold Sheet.enterElse at hτ
  split at hτ
  · next l ls c hcurrent =>
    split at hτ
    · cases hτ
    · next l' hl' =>
      cases hτ
      obtain ⟨hbody, hopen, houter⟩ := h.current _ hcurrent
      obtain ⟨hopen', hbefore⟩ := hopen.enterElse hbody hl'
      refine ⟨h.closed, fun o ho ↦ ?_, h.declared⟩
      obtain rfl := Option.some.inj ho
      exact ⟨trivial, hopen', hbefore ▸ houter⟩
  · cases hτ

/-- A fallback name is a proper text. -/
theorem isProper_fallbackName (kind : SymbolKind) : Text.isProper kind.fallbackName = true := by
  cases kind <;> decide

/-- A signature is a proper text. -/
theorem isProper_signature (args : List String) : Text.isProper (signature args) = true := by
  unfold signature
  exact Text.isProper_nameOr _ (isProper_fallbackName .procedures)

/-- A declaration keeps the shape of a sheet. -/
theorem IsShaped.declare (h : σ.IsShaped catalog target) {line : Nat} {name : String}
    {args : List String} (hτ : σ.declare line name args = .ok τ) : τ.IsShaped catalog target := by
  obtain ⟨kind, -, -, rfl⟩ := declare_eq_ok hτ
  refine ⟨h.closed, h.current, fun r hr ↦ ?_⟩
  rcases List.mem_append.1 hr with hr | hr
  · exact h.declared r hr
  · obtain rfl := List.mem_singleton.1 hr
    dsimp only
    exact Text.isProper_nameOr _ (isProper_fallbackName kind)

/-- The script that starts by itself is a script. -/
theorem IsShaped.ensureScript (hcat : catalog.IsRegular) (h : σ.IsShaped catalog target) :
    σ.ensureScript.IsShaped catalog target := by
  unfold Sheet.ensureScript
  split
  · exact h
  · refine h.start ⟨.inl ⟨.flagClicked, hcat.essential _ (by decide), rfl,
      by cases target <;> decide, ⟨rfl, rfl, by simp [Node.asked], rfl⟩, trivial⟩, trivial⟩

/-- A statement goes into the open script, or starts one. -/
theorem IsShaped.statement (hcat : catalog.IsRegular) (h : σ.IsShaped catalog target)
    {read : Reader} (hread : GivesValues catalog target read) {c : Command}
    (hmem : c ∈ catalog.commands.values) (havailable : c.isAvailableOn target = true)
    (hkind : c.kind = .hat ∨ c.kind.isStatement = true) {line : Nat} {tokens raw : List String}
    (hτ : σ.statement read line c tokens raw = .ok τ) : τ.IsShaped catalog target := by
  obtain ⟨slots, hslots, hτ⟩ := bind_eq_ok.1 hτ
  cases hτ
  have hregular := hcat.regular c hmem
  have hnode : (statementNode c tokens raw).Fits c := by
    refine fits_fields hregular _ (fun name hname ↦ ?_) ?_
    · split at hname
      · obtain rfl := Option.some.inj hname
        exact isProper_signature tokens
      · cases hname
    · split
      · next hcall => rw [hcall]; rfl
      · next hcall => simp [hcall]
  have hfill := inputs_shape hcat hread (Opcode.isComparison c.opcode) hregular.inputs hslots
  have hstack : c.kind ≠ .nesting → c.kind ≠ .hat → (Chain.cons () (statementNode c tokens raw)
      slots .nil).IsBody catalog target := by
    intro hnesting hhat
    refine ⟨⟨c, hmem, hkind.resolve_left hhat, havailable, hnode, ?_⟩, trivial⟩
    rw [if_neg hnesting]
    exact hfill
  unfold place
  split
  · next hhat => exact h.start ⟨.inl ⟨c, hmem, hhat, havailable, hnode, hfill⟩, trivial⟩
  · next hnesting =>
    refine ⟨h.closed, fun o ho ↦ ?_, h.declared⟩
    obtain ⟨o, hmemo, rfl⟩ := Option.map_eq_some_iff.1 ho
    exact ⟨trivial, Layer.isOpen_of_command hcat hmem hnesting havailable hnode hfill _ _ _,
      h.current o hmemo⟩
  · next hhat hnesting =>
    refine ⟨h.closed, fun o ho ↦ ?_, h.declared⟩
    obtain ⟨o, hmemo, rfl⟩ := Option.map_eq_some_iff.1 ho
    exact (h.current o hmemo).append (hstack hnesting hhat)

/-- What a line does keeps the shape of the scripts. -/
theorem IsShaped.command (hcat : catalog.IsRegular) (h : σ.IsShaped catalog target)
    {read : Reader} (hread : GivesValues catalog target read) {c : Command}
    (hmem : c ∈ catalog.commands.values) {line : Nat} {tokens raw : List String}
    (hτ : σ.command read target line c tokens raw = .ok τ) : τ.IsShaped catalog target := by
  obtain ⟨-, hτ⟩ | ⟨-, hτ⟩ | ⟨-, hτ⟩ | ⟨havailable, hτ⟩ := command_eq_ok hτ
  · exact h.finish hτ
  · exact h.enterElse hτ
  · exact h.declare hτ
  obtain ⟨-, -, rfl⟩ | ⟨hkind, -, hτ⟩ | ⟨hkind, hτ⟩ := hτ
  · exact h.start ⟨.inr ⟨rfl, (), signature tokens, isProper_signature tokens, rfl⟩, trivial⟩
  · exact h.statement hcat hread hmem havailable (.inl hkind) hτ
  · refine (h.ensureScript hcat).statement hcat hread hmem havailable (.inr ?_) hτ
    rcases hkind with (hkind | hkind) | hkind <;> rw [hkind] <;> rfl

/-- A line keeps the shape of a sheet. -/
theorem IsShaped.line (hcat : catalog.IsRegular) (h : σ.IsShaped catalog target)
    {source : SourceLine} (hτ : σ.line catalog target source = .ok τ) :
    τ.IsShaped catalog target := by
  unfold Sheet.line at hτ
  dsimp only at hτ
  split at hτ
  · cases hτ
    exact h
  · split at hτ
    · cases hτ
      exact h
    · split at hτ
      · cases hτ
      · next c hresolve =>
        exact h.command hcat (expression_givesValues hcat _ _)
          (Catalog.mem_values_of_resolve? hresolve) hτ

/-- Lines keep the shape of a sheet. -/
theorem IsShaped.lines (hcat : catalog.IsRegular) :
    ∀ {sources : List SourceLine} {σ τ : Sheet Unit},
    σ.IsShaped catalog target →
      sources.foldlM (fun σ source ↦ Sheet.line catalog target source σ) σ = Except.ok τ →
        τ.IsShaped catalog target
  | [], _, _, h, hτ => by
    cases hτ
    exact h
  | _ :: _, _, _, h, hτ => by
    rw [List.foldlM_cons] at hτ
    obtain ⟨mid, hmid, hτ⟩ := bind_eq_ok.1 hτ
    exact (h.line hcat hmid).lines hcat hτ

/-- The scripts that lines give have the shape of scripts, and all nesting blocks are closed. -/
theorem isShaped_of_read (hcat : catalog.IsRegular) {sources : List SourceLine}
    (h : read catalog target sources = .ok σ) : σ.IsShaped catalog target := by
  obtain ⟨mid, hmid, hdone⟩ := bind_eq_ok.1 h
  have hshaped := isShaped_empty.lines hcat hmid
  unfold done at hdone
  split at hdone
  · cases hdone
  · cases hdone
    exact hshaped

end Sheet

end BlockScript

import BlockScript.Proofs.Walk

/-!
# Legible targets

A listing writes a comparison as its two operands with a sign between them and without parentheses.
So a comparison can be read again as a condition, but neither as an operand of another comparison
nor in a slot for a text or a number. A text that starts with the mark of an expression or is shaped
like a call can be read again where it is kept in quotes, but the choice of a menu is not.
`Target.IsLegible` says of the blocks of a target that they avoid all this, and `Chain.IsLegible`
says it of a tree; the trees that a legible target holds are legible (`Chain.Held.isLegible`).
-/

namespace BlockScript

/-! ### Legible blocks -/

/-- Whether a text is written in quotes. -/
def Token.needsQuotes (text : String) : Bool :=
  !(!text.toList.isEmpty && text.toList.all Chars.isPlain)

/-- Whether a slot holds nothing but a text that is written in quotes. -/
def Slot.isQuoted : Slot → Bool
  | literal value => Token.needsQuotes value.text
  | _ => false

/-- Whether all slots of a block are written in quotes. -/
def Block.isQuoted (b : Block) : Bool :=
  b.inputs.values.all Slot.isQuoted

/-- A slot of a block may hold a comparison: the block does not compare, the slot is a condition,
which is to say that it has no fallback, and in an argument of a call the comparison does not stand
between quotes, since these would be taken for a pair. -/
structure Block.MayHold (catalog : Catalog) (b : Block) (slot : Slot) (comparison : Block) :
    Prop where
  outer : Opcode.isComparison b.opcode = false
  constant : slot.literal? = none
  shadow : slot.shadow? = none
  quotes : (catalog.expressionFor? b.opcode).isSome = true → comparison.isQuoted = false

instance (catalog : Catalog) (b : Block) (slot : Slot) (comparison : Block) :
    Decidable (b.MayHold catalog slot comparison) :=
  decidable_of_iff (Opcode.isComparison b.opcode = false ∧ slot.literal? = none ∧
    slot.shadow? = none ∧
      ((catalog.expressionFor? b.opcode).isSome = true → comparison.isQuoted = false))
    ⟨fun ⟨h₁, h₂, h₃, h₄⟩ ↦ ⟨h₁, h₂, h₃, h₄⟩, fun h ↦ ⟨h.1, h.2, h.3, h.4⟩⟩

/-- What is written for the target can be read again. -/
structure Target.IsLegible (catalog : Catalog) (t : Target) : Prop where
  /-- Comparisons are conditions. -/
  comparisons : ∀ b ∈ t.blocks.values, ∀ slot ∈ b.inputs.values,
    ∀ c ∈ slot.connected?.bind t.blocks.find?, Opcode.isComparison c.opcode = true →
      b.MayHold catalog slot c
  /-- No menu shows a text that could be an expression. -/
  menus : ∀ b ∈ t.blocks.values, b.shadow = true → ∀ field ∈ b.fields.values,
    Text.startsWith field.text "@" = false ∧ Call.isShaped field.text = false

instance (catalog : Catalog) (t : Target) : Decidable (t.IsLegible catalog) :=
  decidable_of_iff ((∀ b ∈ t.blocks.values, ∀ slot ∈ b.inputs.values,
    ∀ c ∈ slot.connected?.bind t.blocks.find?, Opcode.isComparison c.opcode = true →
      b.MayHold catalog slot c) ∧
    ∀ b ∈ t.blocks.values, b.shadow = true → ∀ field ∈ b.fields.values,
      Text.startsWith field.text "@" = false ∧ Call.isShaped field.text = false)
    ⟨fun ⟨h₁, h₂⟩ ↦ ⟨h₁, h₂⟩, fun h ↦ ⟨h.1, h.2⟩⟩

/-! ### Legible trees -/

variable {α : Type}

/-- Whether the first block of a chain compares. -/
def Chain.compares : Chain α → Bool
  | .nil => false
  | .cons _ node _ _ => Opcode.isComparison node.opcode

/-- All slots hold nothing but a text that is written in quotes. -/
def Slots.AreQuoted : Slots α → Prop
  | .nil => True
  | .cons _ constant value _ rest =>
    (value = .nil ∧ ∃ literal ∈ constant, Token.needsQuotes literal.text = true) ∧ rest.AreQuoted

/-- The slots of the first block are written in quotes. -/
def Chain.IsQuoted : Chain α → Prop
  | .nil => True
  | .cons _ _ slots _ => slots.AreQuoted

/-- A slot of a block with this operation code may hold a comparison. -/
structure Chain.MayStand (catalog : Catalog) (opcode : String) (constant : Option Literal)
    (shadow comparison : Chain α) : Prop where
  outer : Opcode.isComparison opcode = false
  constant : constant = none
  shadow : shadow = .nil
  quotes : (catalog.expressionFor? opcode).isSome = true → ¬ comparison.IsQuoted

section

variable (catalog : Catalog) (symbols : Symbols)

mutual

/-- Comparisons are conditions, and no menu shows a text that could be an expression. -/
def Chain.IsLegible : Chain α → Prop
  | .nil => True
  | .cons _ node slots rest => slots.IsLegible node.opcode ∧ rest.IsLegible

/-- The slots of a block with this operation code are legible. -/
def Slots.IsLegible (opcode : String) : Slots α → Prop
  | .nil => True
  | .cons _ constant value shadow rest =>
    ((value.compares = true → Chain.MayStand catalog opcode constant shadow value) ∧
      Reading.isOperandExpression (shadow.choice symbols) = false) ∧
      value.IsLegible ∧ rest.IsLegible opcode

end

end

variable {catalog : Catalog} {symbols : Symbols}

/-- Slots put together are legible when both are. -/
theorem Slots.isLegible_append {opcode : String} : ∀ front back : Slots α,
    (front.append back).IsLegible catalog symbols opcode ↔
      front.IsLegible catalog symbols opcode ∧ back.IsLegible catalog symbols opcode
  | .nil, _ => by simp [Slots.append, Slots.IsLegible]
  | .cons _ _ _ _ rest, back => by
    simp only [Slots.append, Slots.IsLegible, rest.isLegible_append back, and_assoc]

/-! ### What a legible target holds -/

namespace Dict

/-- A value that is found is one of the values. -/
theorem mem_values_of_find? {β : Type} {d : Dict β} {key : String} {value : β}
    (h : d.find? key = some value) : value ∈ d.values :=
  List.mem_map.2 ⟨(key, value), mem_entries_iff.2 h, rfl⟩

/-- A value of a dictionary is found under some key. -/
theorem exists_find?_of_mem_values {β : Type} {d : Dict β} {value : β} (h : value ∈ d.values) :
    ∃ key, d.find? key = some value := by
  obtain ⟨⟨key, value⟩, hentry, rfl⟩ := List.mem_map.1 h
  exact ⟨key, mem_entries_iff.1 hentry⟩

end Dict

variable {g : Graph}

/-- A slot in quotes is one in the graph. -/
theorem Slots.Held.isQuoted : ∀ {slots : Slots BlockId} {owner : BlockId} {inputs : Dict Slot},
    slots.Held g owner inputs → slots.AreQuoted → ∀ name ∈ slots.names,
      ∃ slot, inputs.find? name = some slot ∧ slot.isQuoted = true
  | .cons input constant value shadow rest, owner, inputs, ⟨⟨slot, hfind, hshows⟩, _, _, hrest⟩,
      ⟨⟨hnil, literal, hliteral, hquotes⟩, hothers⟩, name, hname => by
    rcases List.mem_cons.1 hname with rfl | hname
    · refine ⟨slot, hfind, ?_⟩
      have hconnected : slot.connected? = none := by rw [hshows.value, hnil]; rfl
      have hconstant : slot.literal? = some literal := hshows.constant.trans hliteral
      cases slot with
      | literal value =>
        obtain rfl := Option.some.inj hconstant
        exact hquotes
      | shadow id => cases hconstant
      | block id => cases hconnected
      | covered id fallback => cases hconnected
    · exact hrest.isQuoted hothers name hname

/-- A block whose slots are in quotes is one in the graph. -/
theorem Chain.Held.isQuoted {id : BlockId} {node : Node} {slots : Slots BlockId}
    {rest : Chain BlockId} {s : Setting} (h : (Chain.cons id node slots rest).Held g s)
    (hquoted : slots.AreQuoted) : ∃ b, g.blocks.find? id = some b ∧ b.isQuoted = true := by
  obtain ⟨b, hb, -, -, hnames, hslots, -⟩ := h
  refine ⟨b, hb, List.all_eq_true.2 fun slot hslot ↦ ?_⟩
  obtain ⟨name, hfind⟩ := Dict.exists_find?_of_mem_values hslot
  have hname : name ∈ slots.names := (hnames name).2 (by rw [hfind]; rfl)
  obtain ⟨slot', hfind', hslot'⟩ := hslots.isQuoted hquoted name hname
  obtain rfl := Option.some.inj (hfind.symm.trans hfind')
  exact hslot'

/-- A chain without a start is empty. -/
theorem Chain.start_eq_none {c : Chain α} (h : c.start = none) : c = .nil := by
  cases c with
  | nil => rfl
  | cons => cases h

/-- The choice of a menu is the text of one of its fields. -/
theorem Chain.Held.choice {t : Target} {owner : BlockId} {shadow : Chain BlockId}
    (ht : t.IsLegible catalog)
    (h : shadow.Held ⟨t.blocks, symbols⟩ { parent := some owner, shadow := true }) :
    Reading.isOperandExpression (shadow.choice symbols) = false := by
  match shadow, h with
  | .nil, _ =>
    show Reading.isOperandExpression "" = false
    decide
  | .cons id node slots rest, ⟨m, hm, hsaid, _⟩ =>
    have hfields : node.fieldDict? symbols = some m.fields := hsaid.fields
    have hmenus := ht.menus m (Dict.mem_values_of_find? hm) hsaid.shadow
    simp only [Chain.choice, hfields, Option.bind_some]
    cases hhead : m.fields.values.head? with
    | none =>
      show Reading.isOperandExpression "" = false
      decide
    | some field =>
      obtain ⟨hmark, hshaped⟩ := hmenus field (List.mem_of_mem_head? hhead)
      simp [Reading.isOperandExpression, hmark, hshaped]

mutual

/-- A legible target holds legible trees. -/
theorem Chain.Held.isLegible {t : Target} (ht : t.IsLegible catalog) :
    ∀ {c : Chain BlockId} {s : Setting}, c.Held ⟨t.blocks, symbols⟩ s →
      c.IsLegible catalog symbols
  | .nil, _, _ => trivial
  | .cons .., _, ⟨_, hb, hsaid, _, _, hslots, hrest⟩ =>
    ⟨hsaid.opcode ▸ hslots.isLegible ht (Dict.mem_values_of_find? hb), hrest.isLegible ht⟩

/-- A legible target holds legible slots. -/
theorem Slots.Held.isLegible {t : Target} (ht : t.IsLegible catalog) {b : Block}
    (hb : b ∈ t.blocks.values) : ∀ {slots : Slots BlockId} {owner : BlockId},
    slots.Held ⟨t.blocks, symbols⟩ owner b.inputs → slots.IsLegible catalog symbols b.opcode
  | .nil, _, _ => trivial
  | .cons input constant value shadow rest, owner,
      ⟨⟨slot, hfind, hshows⟩, hvalue, hshadow, hrest⟩ => by
    refine ⟨⟨fun hcompares ↦ ?_, hshadow.choice ht⟩, hvalue.isLegible ht, hrest.isLegible ht hb⟩
    match value, hshows, hvalue, hcompares with
    | .cons id node slots rest', hshows, hvalue, hcompares =>
      have ⟨c, hc, hsaid, _⟩ := hvalue
      have hc : t.blocks.find? id = some c := hc
      have hconnected : slot.connected? = some id := hshows.value
      have hmay := ht.comparisons b hb slot (Dict.mem_values_of_find? hfind) c
        (by rw [hconnected]; exact hc) (by rw [hsaid.opcode]; exact hcompares)
      refine ⟨hmay.outer, hshows.constant ▸ hmay.constant,
        Chain.start_eq_none (hshows.shadow ▸ hmay.shadow), fun hexpression hquoted ↦ ?_⟩
      obtain ⟨c', hc', hquotes⟩ := hvalue.isQuoted hquoted
      obtain rfl := Option.some.inj (hc.symm.trans hc')
      rw [hmay.quotes hexpression] at hquotes
      cases hquotes

end

end BlockScript

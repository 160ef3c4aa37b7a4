import BlockScript.Proofs.Legible

/-!
# Trees that resemble each other

Two trees resemble each other when they have the same blocks in the same places, and in comparisons
the same constants up to the form of numbers (`Chain.Resembles`). Texts, numbers and colors
elsewhere, and the names of symbols, need not be the same. A tree that was written and read again
resembles the tree that was written, and it asks for no variable or list that was not declared
before (`Symbols.Declares`); `Chain.Recalls` and `Slots.Recall` say both.
-/

namespace BlockScript

variable {α β : Type}

/-! ### Trees that resemble each other -/

/-- A constant as a comparison has it after it was read again: the same text, or the number that
it reads as. -/
def Literal.Resembles (a b : Literal) : Prop :=
  b.text = a.text ∨ ∃ n, Number.parse? a.text = some n ∧ b.text = Number.format n

mutual

/-- The same blocks in the same places, with the same operands of comparisons. -/
def Chain.Resembles : Chain α → Chain β → Prop
  | .nil, .nil => True
  | .cons _ node slots rest, .cons _ node' slots' rest' => node.opcode = node'.opcode ∧
      slots.Resemble (Opcode.isComparison node.opcode) slots' ∧ rest.Resembles rest'
  | _, _ => False

/-- The same slots, each with the same blocks; in a comparison a slot without a block has the same
constant. -/
def Slots.Resemble (compares : Bool) : Slots α → Slots β → Prop
  | .nil, .nil => True
  | .cons input constant value shadow rest, .cons input' constant' value' shadow' rest' =>
    (input = input' ∧ (compares = true → value = .nil →
      ∃ a ∈ constant, ∃ b ∈ constant', a.Resembles b)) ∧
      value.Resembles value' ∧ shadow.Resembles shadow' ∧ rest.Resemble compares rest'
  | _, _ => False

end

mutual

/-- Trees that resemble each other have the same operation codes. -/
theorem Chain.Resembles.skeleton_eq : ∀ {c : Chain α} {d : Chain β}, c.Resembles d →
    c.skeleton = d.skeleton
  | .nil, .nil, _ => rfl
  | .cons .., .cons .., ⟨hopcode, hslots, hrest⟩ => by
    rw [Chain.skeleton, Chain.skeleton, hopcode, hslots.skeleton_eq, hrest.skeleton_eq]

/-- Slots that resemble each other have the same skeleton. -/
theorem Slots.Resemble.skeleton_eq {compares : Bool} : ∀ {s : Slots α} {u : Slots β},
    s.Resemble compares u → s.skeleton = u.skeleton
  | .nil, .nil, _ => rfl
  | .cons .., .cons .., ⟨⟨hinput, _⟩, hvalue, hshadow, hrest⟩ => by
    rw [Slots.skeleton, Slots.skeleton, hinput, hvalue.skeleton_eq, hshadow.skeleton_eq,
      hrest.skeleton_eq]

end

/-- Slots that resemble each other do so after slots that do. -/
theorem Slots.Resemble.append {compares : Bool} : ∀ {s : Slots α} {u : Slots β} {s' : Slots α}
    {u' : Slots β}, s.Resemble compares u → s'.Resemble compares u' →
      (s.append s').Resemble compares (u.append u')
  | .nil, .nil, _, _, _, h => h
  | .cons .., .cons .., _, _, ⟨hfirst, hvalue, hshadow, hrest⟩, h =>
    ⟨hfirst, hvalue, hshadow, hrest.append h⟩

/-! ### Declared names -/

/-- A variable or list with this name is declared. -/
def Symbols.Declares (symbols : Symbols) (r : Request) : Prop :=
  r.1.isShared = true → ∃ entry ∈ symbols.own.get r.1, entry.name = r.2

/-- Every name that is found has a proper spelling, and is declared here. -/
def Symbols.AreOwn (symbols : Symbols) : Prop :=
  ∀ kind name symbol, symbols.lookup? kind name = some symbol →
    Text.isProper symbol.name = true ∧ symbols.Declares (kind, symbol.name)

/-- The second tree is what the first reads back as. -/
structure Chain.Recalls (symbols : Symbols) (c : Chain α) (d : Tree) : Prop where
  resembles : c.Resembles d
  declares : ∀ r ∈ d.asked, symbols.Declares r

/-- The second slots are what the first read back as. -/
structure Slots.Recall (symbols : Symbols) (compares : Bool) (s : Slots α) (u : Slots Unit) :
    Prop where
  resemble : s.Resemble compares u
  declares : ∀ r ∈ u.asked, symbols.Declares r

variable {catalog : Catalog} {target : TargetKind} {symbols : Symbols}

/-- An empty chain reads back as an empty one. -/
theorem Chain.recalls_nil : (Chain.nil : Chain α).Recalls symbols .nil :=
  ⟨trivial, nofun⟩

/-- No slots read back as no slots. -/
theorem Slots.recall_nil (compares : Bool) : (Slots.nil : Slots α).Recall symbols compares .nil :=
  ⟨trivial, nofun⟩

/-- A slot reads back in front of others when its content does. -/
theorem Slots.Recall.cons {compares : Bool} {input : String} {constant constant' : Option Literal}
    {value shadow : Chain α} {value' shadow' : Tree} {rest : Slots α} {rest' : Slots Unit}
    (hconstant : compares = true → value = .nil → ∃ a ∈ constant, ∃ b ∈ constant', a.Resembles b)
    (hvalue : value.Recalls symbols value') (hshadow : shadow.Recalls symbols shadow')
    (hrest : rest.Recall symbols compares rest') :
    (Slots.cons input constant value shadow rest).Recall symbols compares
      (.cons input constant' value' shadow' rest') := by
  refine ⟨⟨⟨rfl, hconstant⟩, hvalue.resembles, hshadow.resembles, hrest.resemble⟩, fun r hr ↦ ?_⟩
  simp only [Slots.asked, List.mem_append] at hr
  rcases hr with hr | hr | hr
  exacts [hshadow.declares r hr, hvalue.declares r hr, hrest.declares r hr]

/-- Slots put together read back as what both of them read back as. -/
theorem Slots.Recall.append {compares : Bool} {s s' : Slots α} {u u' : Slots Unit}
    (h : s.Recall symbols compares u) (h' : s'.Recall symbols compares u') :
    (s.append s').Recall symbols compares (u.append u') := by
  refine ⟨h.resemble.append h'.resemble, fun r hr ↦ ?_⟩
  rw [Slots.asked_append, List.mem_append] at hr
  rcases hr with hr | hr
  exacts [h.declares r hr, h'.declares r hr]

/-- A block reads back as one with the same operation code, if its slots and what follows do. -/
theorem Chain.Recalls.cons {tag : α} {node node' : Node} {slots : Slots α} {slots' : Slots Unit}
    {rest : Chain α} {rest' : Tree} (hopcode : node.opcode = node'.opcode)
    (hnode : ∀ r ∈ node'.asked, symbols.Declares r)
    (hslots : slots.Recall symbols (Opcode.isComparison node.opcode) slots')
    (hrest : rest.Recalls symbols rest') :
    (Chain.cons tag node slots rest).Recalls symbols (.cons () node' slots' rest') := by
  refine ⟨⟨hopcode, hslots.resemble, hrest.resembles⟩, fun r hr ↦ ?_⟩
  simp only [Chain.asked, List.mem_append] at hr
  rcases hr with hr | hr | hr
  exacts [hnode r hr, hslots.declares r hr, hrest.declares r hr]

end BlockScript

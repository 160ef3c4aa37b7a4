import BlockScript.Graph.Target
import BlockScript.Proofs.Symbol

/-!
# Trees of blocks

The blocks of a target form a graph that refers to itself by identifiers. What a script says does
not depend on these: it is a tree. `Chain` and `Slots` are these trees, with a tag at each block. A
chain is a block with its slots and the blocks after it; a slot is a constant, a computed value and
a shadow, of which any may be missing. So a value is a chain of one block, and a sub-chain is a
value with further blocks after the first one.

Trees tagged with identifiers say where each block is kept, and the tree without tags
(`Chain.erase`) is what is left when identifiers are forgotten.
-/

namespace BlockScript

/-! ### Nodes -/

/-- A field as it is asked for: a text, or the name of a symbol in one of the tables. -/
structure FieldText where
  /-- The name of the field. -/
  name : String
  /-- The table in which the text names a symbol. -/
  table : Option SymbolKind
  /-- The text. -/
  text : String
deriving DecidableEq, Repr

namespace FieldText

/-- The field that shows the text, if the symbol it names is declared. -/
def field? (symbols : Symbols) (f : FieldText) : Option Field :=
  match f.table with
  | some kind => (symbols.lookup? kind f.text).map fun symbol ↦ ⟨symbol.name, some symbol.id⟩
  | none => some ⟨f.text, none⟩

/-- The names a field asks for. -/
def asked (f : FieldText) : List Request :=
  f.table.toList.map fun kind ↦ (kind, f.text)

/-- A field that shows its text shows the same after more symbols are declared. -/
theorem field?_of_le {s t : Symbols} (h : s.Le t) {f : FieldText} {field : Field}
    (hf : f.field? s = some field) : f.field? t = some field := by
  unfold field? at hf ⊢
  cases hk : f.table with
  | none => simpa [hk] using hf
  | some kind =>
    simp only [hk, Option.map_eq_some_iff] at hf ⊢
    obtain ⟨symbol, hs, rfl⟩ := hf
    exact ⟨symbol, h _ _ _ hs, rfl⟩

end FieldText

/-- What a block says apart from its slots. -/
structure Node where
  /-- What the block does. -/
  opcode : String
  /-- Its fields. -/
  fields : List FieldText := []
  /-- The name of the procedure it is about. -/
  procedure : Option String := none
deriving DecidableEq, Repr

namespace Node

/-- Puts the field that shows a text into a dictionary. -/
def putField (symbols : Symbols) (fields : Dict Field) (f : FieldText) : Option (Dict Field) :=
  (f.field? symbols).map (fields.insert f.name)

/-- The fields of a node, if the symbols they name are declared. -/
def fieldDict? (symbols : Symbols) (node : Node) : Option (Dict Field) :=
  node.fields.foldlM (putField symbols) ∅

/-- The procedure of a node, if it is declared. -/
def procedure? (symbols : Symbols) (node : Node) : Option (Option Procedure) :=
  match node.procedure with
  | some name =>
    (symbols.lookup? .procedures name).map fun symbol ↦ some { signature := symbol.name }
  | none => some none

/-- The names a node asks for. -/
def asked (node : Node) : List Request :=
  node.fields.flatMap FieldText.asked ++
    node.procedure.toList.map fun name ↦ (SymbolKind.procedures, name)

/-- A node about no procedure asks for the names of its fields only. -/
theorem asked_of_none {node : Node} (h : node.procedure = none) :
    node.asked = node.fields.flatMap FieldText.asked := by
  rw [asked, h, Option.toList_none, List.map_nil, List.append_nil]

/-- Fields that were collected are collected again after more symbols are declared. -/
theorem foldlM_putField_of_le {s t : Symbols} (h : s.Le t) {fs : List FieldText}
    {start fields : Dict Field} (hf : fs.foldlM (putField s) start = some fields) :
    fs.foldlM (putField t) start = some fields := by
  induction fs generalizing start with
  | nil => exact hf
  | cons f fs ih =>
    rw [List.foldlM_cons, Option.bind_eq_bind, Option.bind_eq_some_iff] at hf ⊢
    obtain ⟨mid, hmid, hrest⟩ := hf
    obtain ⟨field, hfield, rfl⟩ := Option.map_eq_some_iff.1 hmid
    exact ⟨_, by rw [putField, FieldText.field?_of_le h hfield]; rfl, ih hrest⟩

/-- The fields of a node stay as they are when more symbols are declared. -/
theorem fieldDict?_of_le {s t : Symbols} (h : s.Le t) {node : Node} {fields : Dict Field}
    (hf : node.fieldDict? s = some fields) : node.fieldDict? t = some fields :=
  foldlM_putField_of_le h hf

/-- The procedure of a node stays as it is when more symbols are declared. -/
theorem procedure?_of_le {s t : Symbols} (h : s.Le t) {node : Node} {procedure : Option Procedure}
    (hp : node.procedure? s = some procedure) : node.procedure? t = some procedure := by
  unfold procedure? at hp ⊢
  cases hname : node.procedure with
  | none => simpa [hname] using hp
  | some name =>
    simp only [hname, Option.map_eq_some_iff] at hp ⊢
    obtain ⟨symbol, hs, rfl⟩ := hp
    exact ⟨symbol, h _ _ _ hs, rfl⟩

end Node

/-! ### Chains and slots -/

mutual

/-- Blocks one after the other, each with its slots. -/
inductive Chain (α : Type) where
  | nil
  | cons (tag : α) (node : Node) (slots : Slots α) (rest : Chain α)

/-- The slots of a block, each with its constant, its value and its shadow. -/
inductive Slots (α : Type) where
  | nil
  | cons (input : String) (constant : Option Literal) (value shadow : Chain α) (rest : Slots α)

end

/-- A tree without tags. -/
abbrev Tree := Chain Unit

variable {α : Type}

mutual

/-- A chain without its tags. -/
def Chain.erase : Chain α → Tree
  | .nil => .nil
  | .cons _ node slots rest => .cons () node slots.erase rest.erase

/-- Slots without their tags. -/
def Slots.erase : Slots α → Slots Unit
  | .nil => .nil
  | .cons input constant value shadow rest =>
    .cons input constant value.erase shadow.erase rest.erase

end

mutual

/-- The tags of a chain, each block before what it holds. -/
def Chain.tags : Chain α → List α
  | .nil => []
  | .cons tag _ slots rest => tag :: (slots.tags ++ rest.tags)

/-- The tags in slots, in each the shadow before the value. -/
def Slots.tags : Slots α → List α
  | .nil => []
  | .cons _ _ value shadow rest => shadow.tags ++ (value.tags ++ rest.tags)

end

mutual

/-- The names a chain asks for. -/
def Chain.asked : Chain α → List Request
  | .nil => []
  | .cons _ node slots rest => node.asked ++ (slots.asked ++ rest.asked)

/-- The names that slots ask for. -/
def Slots.asked : Slots α → List Request
  | .nil => []
  | .cons _ _ value shadow rest => shadow.asked ++ (value.asked ++ rest.asked)

end

mutual

/-- The operation codes of a chain and how its blocks hang together, and nothing else. -/
def Chain.skeleton : Chain α → Tree
  | .nil => .nil
  | .cons _ node slots rest => .cons () { opcode := node.opcode } slots.skeleton rest.skeleton

/-- The operation codes in slots. -/
def Slots.skeleton : Slots α → Slots Unit
  | .nil => .nil
  | .cons input _ value shadow rest =>
    .cons input none value.skeleton shadow.skeleton rest.skeleton

end

mutual

/-- What a chain asks for does not depend on its tags. -/
theorem Chain.asked_erase : ∀ c : Chain α, c.erase.asked = c.asked
  | .nil => rfl
  | .cons _ _ slots rest => by
    rw [Chain.erase, Chain.asked, Chain.asked, slots.asked_erase, rest.asked_erase]

/-- What slots ask for does not depend on their tags. -/
theorem Slots.asked_erase : ∀ s : Slots α, s.erase.asked = s.asked
  | .nil => rfl
  | .cons _ _ value shadow rest => by
    rw [Slots.erase, Slots.asked, Slots.asked, value.asked_erase, shadow.asked_erase,
      rest.asked_erase]

end

mutual

/-- The skeleton of a chain does not depend on its tags. -/
theorem Chain.skeleton_erase : ∀ c : Chain α, c.erase.skeleton = c.skeleton
  | .nil => rfl
  | .cons _ _ slots rest => by
    rw [Chain.erase, Chain.skeleton, Chain.skeleton, slots.skeleton_erase, rest.skeleton_erase]

/-- The skeleton of slots does not depend on their tags. -/
theorem Slots.skeleton_erase : ∀ s : Slots α, s.erase.skeleton = s.skeleton
  | .nil => rfl
  | .cons _ _ value shadow rest => by
    rw [Slots.erase, Slots.skeleton, Slots.skeleton, value.skeleton_erase, shadow.skeleton_erase,
      rest.skeleton_erase]

end

namespace Slots

/-- The names of the slots in order. -/
def names : Slots α → List String
  | .nil => []
  | .cons input _ _ _ rest => input :: rest.names

/-- Slots one after the other. -/
def append : Slots α → Slots α → Slots α
  | .nil, s => s
  | .cons input constant value shadow rest, s => .cons input constant value shadow (rest.append s)

/-- No slots at the end change nothing. -/
@[simp]
theorem append_nil : ∀ s : Slots α, s.append .nil = s
  | .nil => rfl
  | .cons _ _ _ _ rest => by rw [append, append_nil rest]

/-- Slots are put together in either order of brackets. -/
theorem append_assoc : ∀ s t u : Slots α, (s.append t).append u = s.append (t.append u)
  | .nil, _, _ => rfl
  | .cons _ _ _ _ rest, t, u => by rw [append, append, append, append_assoc rest]

/-- The names of slots put together are those of both. -/
@[simp]
theorem names_append : ∀ s t : Slots α, (s.append t).names = s.names ++ t.names
  | .nil, _ => rfl
  | .cons _ _ _ _ rest, t => by rw [append, names, names, names_append rest, List.cons_append]

/-- The tags of slots put together are those of both. -/
@[simp]
theorem tags_append : ∀ s t : Slots α, (s.append t).tags = s.tags ++ t.tags
  | .nil, _ => rfl
  | .cons _ _ _ _ rest, t => by
    rw [append, tags, tags, tags_append rest]
    simp only [List.append_assoc]

/-- Slots put together ask for what both ask for. -/
@[simp]
theorem asked_append : ∀ s t : Slots α, (s.append t).asked = s.asked ++ t.asked
  | .nil, _ => rfl
  | .cons _ _ _ _ rest, t => by
    rw [append, asked, asked, asked_append rest]
    simp only [List.append_assoc]

/-- Forgetting tags commutes with putting slots together. -/
@[simp]
theorem erase_append : ∀ s t : Slots α, (s.append t).erase = s.erase.append t.erase
  | .nil, _ => rfl
  | .cons _ _ _ _ rest, t => by rw [append, erase, erase_append rest, erase, append]

/-- The names of slots do not depend on their tags. -/
@[simp]
theorem names_erase : ∀ s : Slots α, s.erase.names = s.names
  | .nil => rfl
  | .cons _ _ _ _ rest => by rw [erase, names, names, names_erase rest]

end Slots

namespace Chain

/-- The tag of the first block. -/
def start : Chain α → Option α
  | .nil => none
  | .cons tag _ _ _ => some tag

/-- The tag of the last block. -/
def last : Chain α → Option α
  | .nil => none
  | .cons tag _ _ .nil => some tag
  | .cons _ _ _ rest => rest.last

/-- Chains one after the other. -/
def append : Chain α → Chain α → Chain α
  | .nil, c => c
  | .cons tag node slots rest, c => .cons tag node slots (rest.append c)

/-- An empty chain at the end changes nothing. -/
@[simp]
theorem append_nil : ∀ c : Chain α, c.append .nil = c
  | .nil => rfl
  | .cons _ _ _ rest => by rw [append, append_nil rest]

/-- Chains are put together in either order of brackets. -/
theorem append_assoc : ∀ a b c : Chain α, (a.append b).append c = a.append (b.append c)
  | .nil, _, _ => rfl
  | .cons _ _ _ rest, b, c => by rw [append, append, append, append_assoc rest]

/-- The tags of chains put together are those of both. -/
@[simp]
theorem tags_append : ∀ a b : Chain α, (a.append b).tags = a.tags ++ b.tags
  | .nil, _ => rfl
  | .cons _ _ _ rest, b => by
    rw [append, tags, tags, tags_append rest]
    simp only [List.append_assoc, List.cons_append]

/-- Chains put together ask for what both ask for. -/
@[simp]
theorem asked_append : ∀ a b : Chain α, (a.append b).asked = a.asked ++ b.asked
  | .nil, _ => rfl
  | .cons _ _ _ rest, b => by
    rw [append, asked, asked, asked_append rest]
    simp only [List.append_assoc]

/-- Forgetting tags commutes with putting chains together. -/
@[simp]
theorem erase_append : ∀ a b : Chain α, (a.append b).erase = a.erase.append b.erase
  | .nil, _ => rfl
  | .cons _ _ _ rest, b => by rw [append, erase, erase_append rest, erase, append]

/-- The start of a chain with a block behind it depends on the tag of that block only. -/
theorem start_append_cons (c : Chain α) (tag : α) (node : Node) (slots slots' : Slots α)
    (node' : Node) (rest rest' : Chain α) :
    (c.append (.cons tag node slots rest)).start =
      (c.append (.cons tag node' slots' rest')).start := by
  cases c <;> rfl

/-- A chain with one block behind it ends with that block. -/
theorem last_append_cons : ∀ (c : Chain α) (tag : α) (node : Node) (slots : Slots α),
    (c.append (.cons tag node slots .nil)).last = some tag
  | .nil, _, _, _ => rfl
  | .cons _ _ _ .nil, _, _, _ => rfl
  | .cons _ _ _ (.cons tag' node' slots' rest), tag, node, slots => by
    have := last_append_cons (.cons tag' node' slots' rest) tag node slots
    simpa only [append, last] using this

/-- A chain is empty or ends with a block. -/
theorem eq_nil_or_append : ∀ c : Chain α,
    c = .nil ∨ ∃ (before : Chain α) (tag : α) (node : Node) (slots : Slots α),
      c = before.append (.cons tag node slots .nil)
  | .nil => .inl rfl
  | .cons tag node slots rest => by
    rcases eq_nil_or_append rest with rfl | ⟨before, tag', node', slots', rfl⟩
    · exact .inr ⟨.nil, tag, node, slots, rfl⟩
    · exact .inr ⟨.cons tag node slots before, tag', node', slots', rfl⟩

end Chain

end BlockScript

import BlockScript.Proofs.Dictionary
import BlockScript.Proofs.Tree

/-!
# Trees held by a graph

A graph holds a tree of identifiers when each block of the tree is there, says what the tree says
and is linked to the others as in the tree (`Chain.Held`, `Slots.Held`). Holding a tree depends on
the blocks of the tree alone (`Chain.Held.keep`), which is what makes separate parts of a graph
independent of each other. The other lemmas say how a held tree grows: a block gets another slot
(`Chain.Held.addSlot`), a block comes after another one (`Chain.Held.append_of`), or a tree moves to
another parent (`Chain.Held.setParent`).
-/

namespace BlockScript

/-- Blocks with the symbols their fields refer to. -/
structure Graph where
  /-- The blocks. -/
  blocks : Dict Block
  /-- The symbols. -/
  symbols : Symbols

/-- How the first block of a tree is tied to the rest of the graph. -/
structure Setting where
  /-- The block that holds it or comes before it. -/
  parent : Option BlockId := none
  /-- Whether it is a fallback of a slot. -/
  shadow : Bool := false
  /-- Its place, if it starts a script. -/
  place : Option Place := none
deriving DecidableEq, Repr

/-- The block says what the node says, in its setting. -/
structure Block.Says (symbols : Symbols) (node : Node) (s : Setting) (b : Block) : Prop where
  opcode : b.opcode = node.opcode
  parent : b.parent = s.parent
  shadow : b.shadow = s.shadow
  place : b.place = s.place
  fields : node.fieldDict? symbols = some b.fields
  procedure : node.procedure? symbols = some b.procedure

/-- The slot has this constant and refers to these two trees. -/
structure Slot.Shows (constant : Option Literal) (value shadow : Chain BlockId) (slot : Slot) :
    Prop where
  constant : slot.literal? = constant
  value : slot.connected? = value.start
  shadow : slot.shadow? = shadow.start

mutual

/-- The graph holds the chain, whose first block is tied to the rest of the graph as given. -/
def Chain.Held (g : Graph) : Chain BlockId → Setting → Prop
  | .nil, _ => True
  | .cons id node slots rest, s =>
    ∃ b, g.blocks.find? id = some b ∧ b.Says g.symbols node s ∧ b.next = rest.start ∧
      (∀ name, name ∈ slots.names ↔ (b.inputs.find? name).isSome) ∧
      slots.Held g id b.inputs ∧ rest.Held g { parent := some id }

/-- The graph holds the trees in the slots of a block with these inputs. -/
def Slots.Held (g : Graph) : Slots BlockId → BlockId → Dict Slot → Prop
  | .nil, _, _ => True
  | .cons input constant value shadow rest, owner, inputs =>
    (∃ slot, inputs.find? input = some slot ∧ slot.Shows constant value shadow) ∧
      value.Held g { parent := some owner } ∧
      shadow.Held g { parent := some owner, shadow := true } ∧ rest.Held g owner inputs

end

/-! ### Separate parts -/

/-- The second graph has the same blocks under these identifiers, and knows the same symbols. -/
structure Graph.Keeps (g h : Graph) (ids : List BlockId) : Prop where
  blocks : ∀ id ∈ ids, h.blocks.find? id = g.blocks.find? id
  symbols : g.symbols.Le h.symbols

namespace Graph.Keeps

variable {g h k : Graph} {ids : List BlockId}

theorem mono {part : List BlockId} (hk : g.Keeps h ids) (hpart : ∀ id ∈ part, id ∈ ids) :
    g.Keeps h part :=
  ⟨fun id hid ↦ hk.blocks id (hpart id hid), hk.symbols⟩

theorem left {more : List BlockId} (hk : g.Keeps h (ids ++ more)) : g.Keeps h ids :=
  hk.mono fun _ ↦ List.mem_append_left _

theorem right {more : List BlockId} (hk : g.Keeps h (more ++ ids)) : g.Keeps h ids :=
  hk.mono fun _ ↦ List.mem_append_right _

theorem tail {id : BlockId} (hk : g.Keeps h (id :: ids)) : g.Keeps h ids :=
  hk.mono fun _ ↦ List.mem_cons_of_mem _

/-- Changing a block keeps all others. -/
theorem modify (g : Graph) {id : BlockId} (f : Block → Block) (hid : id ∉ ids) :
    g.Keeps { g with blocks := g.blocks.modify id f } ids := by
  refine ⟨fun other hother ↦ ?_, Symbols.Le.refl _⟩
  rw [Dict.find?_modify, if_neg]
  rintro rfl
  exact hid hother

end Graph.Keeps

theorem Block.Says.keep {s t : Symbols} {node : Node} {at' : Setting} {b : Block}
    (h : b.Says s node at') (hle : s.Le t) : b.Says t node at' :=
  { h with
    fields := Node.fieldDict?_of_le hle h.fields
    procedure := Node.procedure?_of_le hle h.procedure }

mutual

/-- A held tree stays held while its own blocks stay as they are. -/
theorem Chain.Held.keep {g h : Graph} : ∀ {c : Chain BlockId} {s : Setting},
    c.Held g s → g.Keeps h c.tags → c.Held h s
  | .nil, _, _, _ => trivial
  | .cons id node slots rest, s, hc, hk => by
    obtain ⟨b, hb, hsaid, hnext, hnames, hslots, hrest⟩ := hc
    have hk' := hk.tail
    refine ⟨b, ?_, hsaid.keep hk.symbols, hnext, hnames, ?_, hrest.keep hk'.right⟩
    · rw [hk.blocks id List.mem_cons_self, hb]
    · exact hslots.keep hk'.left fun _ _ ↦ rfl

/-- Held slots stay held while their blocks and the inputs they stand for stay as they are. -/
theorem Slots.Held.keep {g h : Graph} : ∀ {s : Slots BlockId} {owner : BlockId}
    {inputs inputs' : Dict Slot}, s.Held g owner inputs → g.Keeps h s.tags →
    (∀ name ∈ s.names, inputs'.find? name = inputs.find? name) → s.Held h owner inputs'
  | .nil, _, _, _, _, _, _ => trivial
  | .cons input constant value shadow rest, owner, inputs, inputs', hs, hk, hin => by
    obtain ⟨⟨slot, hslot, hshows⟩, hvalue, hshadow, hrest⟩ := hs
    refine ⟨⟨slot, ?_, hshows⟩, hvalue.keep hk.right.left, hshadow.keep hk.left, ?_⟩
    · rw [hin input List.mem_cons_self, hslot]
    · exact hrest.keep hk.right.right fun name hname ↦ hin name (List.mem_cons_of_mem _ hname)

end

/-! ### Growing trees -/

theorem Slots.held_append {g : Graph} {owner : BlockId} {inputs : Dict Slot} :
    ∀ {s t : Slots BlockId}, (s.append t).Held g owner inputs ↔
      s.Held g owner inputs ∧ t.Held g owner inputs
  | .nil, _ => by simp [Slots.append, Slots.Held]
  | .cons .., _ => by simp only [Slots.append, Slots.Held, Slots.held_append, and_assoc]

namespace Chain.Held

variable {g : Graph} {id : BlockId} {node : Node} {slots : Slots BlockId} {rest : Chain BlockId}
  {s : Setting}

theorem head_notMem (h : (Chain.cons id node slots rest).tags.Nodup) :
    id ∉ slots.tags ∧ id ∉ rest.tags := by
  simpa only [Chain.tags, List.mem_append, not_or] using (List.nodup_cons.1 h).1

/-- Changing the block a tree starts with leaves the rest of the tree as it is. -/
theorem modify (hc : (Chain.cons id node slots rest).Held g s)
    (hnd : (Chain.cons id node slots rest).tags.Nodup) (f : Block → Block)
    {node' : Node} {s' : Setting} {slots' : Slots BlockId}
    (hsaid : ∀ b, b.Says g.symbols node s → (f b).Says g.symbols node' s')
    (hnext : ∀ b, (f b).next = b.next)
    (hslots : ∀ b, g.blocks.find? id = some b →
      (∀ name, name ∈ slots.names ↔ (b.inputs.find? name).isSome) →
      slots.Held { g with blocks := g.blocks.modify id f } id b.inputs →
      (∀ name, name ∈ slots'.names ↔ ((f b).inputs.find? name).isSome) ∧
        slots'.Held { g with blocks := g.blocks.modify id f } id (f b).inputs) :
    (Chain.cons id node' slots' rest).Held { g with blocks := g.blocks.modify id f } s' := by
  obtain ⟨hids, hidr⟩ := head_notMem hnd
  obtain ⟨b, hb, hsb, hnb, hnames, hsl, hrest⟩ := hc
  obtain ⟨hnames', hsl'⟩ := hslots b hb hnames
    (hsl.keep (Graph.Keeps.modify g f hids) fun _ _ ↦ rfl)
  refine ⟨f b, ?_, hsaid b hsb, ?_, hnames', hsl', hrest.keep (Graph.Keeps.modify g f hidr)⟩
  · simp [Dict.find?_modify, hb]
  · rw [hnext, hnb]

/-- A tree moves to another parent. -/
theorem setParent (hc : (Chain.cons id node slots rest).Held g s)
    (hnd : (Chain.cons id node slots rest).tags.Nodup) (owner : BlockId) :
    (Chain.cons id node slots rest).Held
      { g with blocks := g.blocks.modify id fun b ↦ { b with parent := some owner } }
      { s with parent := some owner } := by
  refine hc.modify hnd _ (fun b hb ↦ ?_) (fun _ ↦ rfl) fun b _ hnames hsl ↦ ⟨hnames, hsl⟩
  exact { hb with parent := rfl }

/-- The block a tree starts with gets another slot. -/
theorem addSlot (hc : (Chain.cons id node slots rest).Held g s)
    (hnd : (Chain.cons id node slots rest).tags.Nodup) (input : String) {slot : Slot}
    {constant : Option Literal} {value shadow : Chain BlockId} (hnew : input ∉ slots.names)
    (hshows : slot.Shows constant value shadow)
    (hvalue : value.Held g { parent := some id })
    (hshadow : shadow.Held g { parent := some id, shadow := true })
    (hidv : id ∉ value.tags) (hids : id ∉ shadow.tags) :
    (Chain.cons id node (slots.append (.cons input constant value shadow .nil)) rest).Held
      { g with
        blocks := g.blocks.modify id fun b ↦ { b with inputs := b.inputs.insert input slot } }
      s := by
  refine hc.modify hnd _ (fun b hb ↦ ?_) (fun _ ↦ rfl) fun b _ hnames hsl ↦ ⟨fun name ↦ ?_, ?_⟩
  · exact { hb with }
  · by_cases hname : name = input
    · simp [Slots.names, hname]
    · simp [Slots.names, Dict.find?_insert, hname, hnames]
  · -- the slots from before are kept, and the new one is not named like any of them
    refine Slots.held_append.2 ⟨?_, ⟨slot, Dict.find?_insert_self _ _ _, hshows⟩, ?_, ?_, trivial⟩
    · refine hsl.keep ⟨fun _ _ ↦ rfl, Symbols.Le.refl _⟩ fun name hname ↦ ?_
      rw [Dict.find?_insert, if_neg]
      rintro rfl
      exact hnew hname
    · exact hvalue.keep (Graph.Keeps.modify g _ hidv)
    · exact hshadow.keep (Graph.Keeps.modify g _ hids)

/-- A chain comes after a block. -/
theorem link {t : Chain BlockId} (hc : (Chain.cons id node slots .nil).Held g s)
    (hnd : (Chain.cons id node slots .nil).tags.Nodup) (ht : t.Held g { parent := some id })
    (hid : id ∉ t.tags) :
    (Chain.cons id node slots t).Held
      { g with blocks := g.blocks.modify id fun b ↦ { b with next := t.start } } s := by
  obtain ⟨hids, -⟩ := head_notMem hnd
  obtain ⟨b, hb, hsaid, -, hnames, hslots, -⟩ := hc
  refine ⟨{ b with next := t.start }, by simp [Dict.find?_modify, hb], { hsaid with }, rfl, hnames,
    hslots.keep (Graph.Keeps.modify g _ hids) fun _ _ ↦ rfl, ?_⟩
  exact ht.keep (Graph.Keeps.modify g _ hid)

/-- What comes after a chain may change as long as it starts with the same block. -/
theorem append_of {g h : Graph} {c d : Chain BlockId} (hstart : c.start = d.start)
    (hcd : ∀ s, c.Held g s → d.Held h s) : ∀ (before : Chain BlockId) {s : Setting},
    g.Keeps h before.tags → (before.append c).Held g s → (before.append d).Held h s
  | .nil, s, _, hc => hcd s hc
  | .cons id node slots .nil, s, hk, ⟨b, hb, hsaid, hnext, hnames, hsl, hrest⟩ => by
    refine ⟨b, ?_, hsaid.keep hk.symbols, ?_, hnames, hsl.keep hk.tail.left fun _ _ ↦ rfl,
      append_of hstart hcd .nil hk.tail.right hrest⟩
    · rw [hk.blocks id List.mem_cons_self, hb]
    · rw [hnext]
      exact hstart
  | .cons id node slots (.cons id' node' slots' rest'), s, hk,
      ⟨b, hb, hsaid, hnext, hnames, hsl, hrest⟩ => by
    refine ⟨b, ?_, hsaid.keep hk.symbols, hnext, hnames, hsl.keep hk.tail.left fun _ _ ↦ rfl,
      append_of hstart hcd (.cons id' node' slots' rest') hk.tail.right hrest⟩
    rw [hk.blocks id List.mem_cons_self, hb]

end Chain.Held

end BlockScript

import Mathlib.Data.List.Nodup
import Mathlib.Logic.Relation
import BlockScript.Proofs.Lines

/-!
# The blocks of a target form a forest

A block refers to others from its `next` and from the two sides of its slots (`Spot`). In a forest
(`Dict.IsForest`) each block either starts a script, and nothing refers to it, or is referred to
from exactly one place, in the block that is its parent.

A tree that is held by a graph has these properties by its shape: the links of a block are the first
blocks of the trees below it (`Chain.Held.refers`), and since no block occurs twice in the scripts
of a target, no two links lead to the same block. So every target built from lines is a forest
(`Script.isForest_of_build`).
-/

namespace BlockScript

/-! ### Links -/

/-- A place in a block that can refer to another block. -/
inductive Spot where
  /-- The block after it. -/
  | next
  /-- The value of an input. -/
  | value (input : String)
  /-- The fallback of an input. -/
  | shadow (input : String)
deriving DecidableEq, Repr

/-- Whether the place is that of a fallback. -/
def Spot.isShadow : Spot → Bool
  | shadow _ => true
  | _ => false

/-- The block that a place of a block refers to. -/
def Block.at? (b : Block) : Spot → Option BlockId
  | .next => b.next
  | .value input => (b.inputs.find? input).bind Slot.connected?
  | .shadow input => (b.inputs.find? input).bind Slot.shadow?

namespace Dict

/-- A place of the block `holder` refers to the block `id`. -/
def Refers (blocks : Dict Block) (holder : BlockId) (spot : Spot) (id : BlockId) : Prop :=
  ∃ b, blocks.find? holder = some b ∧ b.at? spot = some id

/-- The second block is the parent of the first one. -/
def HasParent (blocks : Dict Block) (id parent : BlockId) : Prop :=
  ∃ b, blocks.find? id = some b ∧ b.parent = some parent

/-- Every block starts a script, or has its place in exactly one other block. -/
structure IsForest (blocks : Dict Block) : Prop where
  /-- What is referred to is there. -/
  closed : ∀ holder spot id, blocks.Refers holder spot id → (blocks.find? id).isSome
  /-- A block that starts no script is referred to from one place, in its parent. -/
  owned : ∀ id b, blocks.find? id = some b → b.isTopLevel = false →
    ∃ holder spot, blocks.Refers holder spot id ∧ b.parent = some holder ∧
      ∀ holder' spot', blocks.Refers holder' spot' id → holder' = holder ∧ spot' = spot
  /-- A block that starts a script has no parent, and nothing refers to it. -/
  root : ∀ id b, blocks.find? id = some b → b.isTopLevel = true →
    b.parent = none ∧ ∀ holder spot, ¬ blocks.Refers holder spot id
  /-- The blocks that are fallbacks are those with the mark of a fallback. -/
  shadow : ∀ id b, blocks.find? id = some b →
    ((∃ holder input, blocks.Refers holder (.shadow input) id) ↔ b.shadow = true)
  /-- From parent to parent, every block leads to the start of a script. -/
  rooted : ∀ id, (blocks.find? id).isSome →
    ∃ top b, Relation.ReflTransGen blocks.HasParent id top ∧ blocks.find? top = some b ∧
      b.isTopLevel = true
  /-- No block is above itself. -/
  acyclic : ∀ id, ¬ Relation.TransGen blocks.HasParent id id

end Dict

/-! ### Links of trees -/

variable {α : Type}

/-- The first blocks of the trees in slots, each with its place. -/
def Slots.links : Slots α → List (Spot × α)
  | .nil => []
  | .cons input _ value shadow rest =>
    shadow.start.toList.map (Prod.mk (.shadow input)) ++
      (value.start.toList.map (Prod.mk (.value input)) ++ rest.links)

theorem Chain.start_sublist_tags (c : Chain α) : c.start.toList.Sublist c.tags := by
  cases c with
  | nil => exact List.Sublist.refl _
  | cons => exact (List.nil_sublist _).cons_cons _

theorem Slots.links_sublist_tags (s : Slots α) : (s.links.map Prod.snd).Sublist s.tags := by
  cases s with
  | nil => exact List.Sublist.refl _
  | cons input constant value shadow rest =>
    simp only [links, tags, List.map_append, List.map_map, Function.comp_def, List.map_id']
    exact shadow.start_sublist_tags.append
      (value.start_sublist_tags.append rest.links_sublist_tags)

/-- The blocks that the first block of a chain refers to, each with its place. -/
def Chain.links : Chain α → List (Spot × α)
  | .nil => []
  | .cons _ _ slots rest => slots.links ++ rest.start.toList.map (Prod.mk .next)

theorem Chain.links_sublist_tags (tag : α) (node : Node) (slots : Slots α) (rest : Chain α) :
    ((Chain.cons tag node slots rest).links.map Prod.snd).Sublist (slots.tags ++ rest.tags) := by
  simp only [links, List.map_append, List.map_map, Function.comp_def, List.map_id']
  exact slots.links_sublist_tags.append rest.start_sublist_tags

/-! ### Links of held trees -/

namespace Dict

/-- The block `id` is tied to a place of the block `holder`. -/
def IsChild (blocks : Dict Block) (holder : BlockId) (spot : Spot) (id : BlockId) : Prop :=
  ∃ b, blocks.find? id = some b ∧ b.parent = some holder ∧ b.place = none ∧
    b.shadow = spot.isShadow

end Dict

variable {g : Graph}

theorem Chain.Held.start_setting : ∀ {c : Chain BlockId} {s : Setting} {id : BlockId}, c.Held g s →
    c.start = some id → ∃ b, g.blocks.find? id = some b ∧ b.parent = s.parent ∧ b.place = s.place ∧
      b.shadow = s.shadow
  | .nil, _, _, _, hid => by cases hid
  | .cons _ _ _ _, _, _, ⟨b, hb, hsaid, _⟩, hid => by
    obtain rfl := Option.some.inj hid
    exact ⟨b, hb, hsaid.parent, hsaid.place, hsaid.shadow⟩

/-- The links of slots are the references of the inputs they stand for. -/
theorem Slots.Held.mem_links : ∀ {s : Slots BlockId} {owner : BlockId} {inputs : Dict Slot},
    s.Held g owner inputs → ∀ {name : String} {slot : Slot} {id : BlockId}, name ∈ s.names →
    inputs.find? name = some slot →
      (slot.connected? = some id → (.value name, id) ∈ s.links) ∧
        (slot.shadow? = some id → (.shadow name, id) ∈ s.links)
  | .nil, _, _, _, _, _, _, hname, _ => by cases hname
  | .cons input constant value shadow rest, owner, inputs, ⟨⟨found, hfound, hshows⟩, _, _, hrest⟩,
      name, slot, id, hname, hslot => by
    rcases List.mem_cons.1 hname with rfl | hname
    · obtain rfl := Option.some.inj (hfound.symm.trans hslot)
      refine ⟨fun h ↦ ?_, fun h ↦ ?_⟩
      · rw [hshows.value] at h
        simp [links, h]
      · rw [hshows.shadow] at h
        simp [links, h]
    · obtain ⟨hvalue, hshadow⟩ := hrest.mem_links hname hslot
      simp only [links, List.mem_append]
      exact ⟨fun h ↦ .inr (.inr (hvalue h)), fun h ↦ .inr (.inr (hshadow h))⟩

/-- The blocks that slots refer to are children of the block the slots belong to. -/
theorem Slots.Held.isChild : ∀ {s : Slots BlockId} {owner : BlockId} {inputs : Dict Slot},
    s.Held g owner inputs → ∀ {spot : Spot} {id : BlockId}, (spot, id) ∈ s.links →
    g.blocks.IsChild owner spot id
  | .nil, _, _, _, _, _, hlink => by cases hlink
  | .cons input constant value shadow rest, owner, inputs, ⟨_, hvalue, hshadow, hrest⟩, spot, id,
      hlink => by
    simp only [links, List.mem_append, List.mem_map, Option.mem_toList, Prod.mk.injEq] at hlink
    rcases hlink with ⟨_, hstart, rfl, rfl⟩ | ⟨_, hstart, rfl, rfl⟩ | hlink
    · exact hshadow.start_setting hstart
    · exact hvalue.start_setting hstart
    · exact hrest.isChild hlink

/-- What the first block of a held tree refers to. -/
theorem Chain.Held.refers {id : BlockId} {node : Node} {slots : Slots BlockId}
    {rest : Chain BlockId} {s : Setting} (h : (Chain.cons id node slots rest).Held g s)
    {spot : Spot} {child : BlockId} (hrefers : g.blocks.Refers id spot child) :
    (spot, child) ∈ (Chain.cons id node slots rest).links ∧ g.blocks.IsChild id spot child := by
  obtain ⟨b, hb, -, hnext, hnames, hslots, hrest⟩ := h
  obtain ⟨b', hb', hat⟩ := hrefers
  obtain rfl := Option.some.inj (hb.symm.trans hb')
  simp only [links, List.mem_append]
  cases spot with
  | next =>
    rw [Block.at?, hnext] at hat
    exact ⟨.inr (by simp [hat]), hrest.start_setting hat⟩
  | value input =>
    obtain ⟨slot, hslot, hid⟩ := Option.bind_eq_some_iff.1 hat
    have hlink := (hslots.mem_links ((hnames input).2 (by simp [hslot])) hslot).1 hid
    exact ⟨.inl hlink, hslots.isChild hlink⟩
  | shadow input =>
    obtain ⟨slot, hslot, hid⟩ := Option.bind_eq_some_iff.1 hat
    have hlink := (hslots.mem_links ((hnames input).2 (by simp [hslot])) hslot).2 hid
    exact ⟨.inl hlink, hslots.isChild hlink⟩

mutual

/-- Each block of a held tree starts a held tree of its own. -/
theorem Chain.Held.subtree : ∀ {c : Chain BlockId} {s : Setting}, c.Held g s → ∀ id ∈ c.tags,
    ∃ node slots rest s', (Chain.cons id node slots rest).Held g s' ∧
      (Chain.cons id node slots rest).tags.Sublist c.tags
  | .nil, _, _, _, hid => by cases hid
  | .cons head node slots rest, s, h, id, hid => by
    rcases List.mem_cons.1 hid with rfl | hid
    · exact ⟨node, slots, rest, s, h, List.Sublist.refl _⟩
    · obtain ⟨b, -, -, -, -, hslots, hrest⟩ := h
      rcases List.mem_append.1 hid with hid | hid
      · obtain ⟨node', slots', rest', s', hheld, hsub⟩ := hslots.subtree id hid
        exact ⟨node', slots', rest', s', hheld,
          (hsub.trans (List.sublist_append_left ..)).cons _⟩
      · obtain ⟨node', slots', rest', s', hheld, hsub⟩ := hrest.subtree id hid
        exact ⟨node', slots', rest', s', hheld,
          (hsub.trans (List.sublist_append_right ..)).cons _⟩

theorem Slots.Held.subtree : ∀ {s : Slots BlockId} {owner : BlockId} {inputs : Dict Slot},
    s.Held g owner inputs → ∀ id ∈ s.tags,
    ∃ node slots rest s', (Chain.cons id node slots rest).Held g s' ∧
      (Chain.cons id node slots rest).tags.Sublist s.tags
  | .nil, _, _, _, _, hid => by cases hid
  | .cons input constant value shadow rest, owner, inputs, ⟨_, hvalue, hshadow, hrest⟩, id,
      hid => by
    rcases List.mem_append.1 hid with hid | hid
    · obtain ⟨node', slots', rest', s', hheld, hsub⟩ := hshadow.subtree id hid
      exact ⟨node', slots', rest', s', hheld, hsub.trans (List.sublist_append_left ..)⟩
    rcases List.mem_append.1 hid with hid | hid
    · obtain ⟨node', slots', rest', s', hheld, hsub⟩ := hvalue.subtree id hid
      exact ⟨node', slots', rest', s', hheld, (hsub.trans (List.sublist_append_left ..)).trans
        (List.sublist_append_right ..)⟩
    · obtain ⟨node', slots', rest', s', hheld, hsub⟩ := hrest.subtree id hid
      exact ⟨node', slots', rest', s', hheld, (hsub.trans (List.sublist_append_right ..)).trans
        (List.sublist_append_right ..)⟩

end

/-- Some place of the first block refers to the second one. -/
def Dict.Link (blocks : Dict Block) (holder id : BlockId) : Prop :=
  ∃ spot, blocks.Refers holder spot id

mutual

/-- Links lead from the first block of a held tree to all its blocks. -/
theorem Chain.Held.reaches : ∀ {c : Chain BlockId} {s : Setting}, c.Held g s → ∀ id ∈ c.tags,
    ∃ top, c.start = some top ∧ Relation.ReflTransGen g.blocks.Link top id
  | .nil, _, _, _, hid => by cases hid
  | .cons head node slots rest, s, ⟨b, hb, _, hnext, _, hslots, hrest⟩, id, hid => by
    refine ⟨head, rfl, ?_⟩
    rcases List.mem_cons.1 hid with rfl | hid
    · exact .refl
    rcases List.mem_append.1 hid with hid | hid
    · exact hslots.reaches hb id hid
    · obtain ⟨top, htop, hreach⟩ := hrest.reaches id hid
      exact .head ⟨.next, b, hb, hnext.trans htop⟩ hreach

/-- Links lead from a block to all blocks in its slots. -/
theorem Slots.Held.reaches : ∀ {s : Slots BlockId} {owner : BlockId} {b : Block},
    s.Held g owner b.inputs → g.blocks.find? owner = some b → ∀ id ∈ s.tags,
    Relation.ReflTransGen g.blocks.Link owner id
  | .nil, _, _, _, _, _, hid => by cases hid
  | .cons input constant value shadow rest, owner, b, hs, hb, id, hid => by
    obtain ⟨⟨slot, hslot, hshows⟩, hvalue, hshadow, hrest⟩ := hs
    rcases List.mem_append.1 hid with hid | hid
    · obtain ⟨top, htop, hreach⟩ := hshadow.reaches id hid
      exact .head ⟨.shadow input, b, hb, by simp [Block.at?, hslot, hshows.shadow, htop]⟩ hreach
    rcases List.mem_append.1 hid with hid | hid
    · obtain ⟨top, htop, hreach⟩ := hvalue.reaches id hid
      exact .head ⟨.value input, b, hb, by simp [Block.at?, hslot, hshows.value, htop]⟩ hreach
    · exact hrest.reaches hb id hid

end

/-! ### Forests -/

namespace Dict

variable {blocks : Dict Block}

theorem HasParent.unique {id parent parent' : BlockId} (h : blocks.HasParent id parent)
    (h' : blocks.HasParent id parent') : parent = parent' := by
  obtain ⟨b, hb, hparent⟩ := h
  obtain ⟨b', hb', hparent'⟩ := h'
  obtain rfl := Option.some.inj (hb.symm.trans hb')
  exact Option.some.inj (hparent.symm.trans hparent')

/-- A block below one that has no parent is not above itself. -/
theorem not_transGen_self {top : BlockId} (htop : ∀ parent, ¬ blocks.HasParent top parent)
    {id : BlockId} (h : Relation.ReflTransGen blocks.HasParent id top) :
    ¬ Relation.TransGen blocks.HasParent id id := by
  induction h using Relation.ReflTransGen.head_induction_on with
  | refl =>
    intro hcycle
    obtain ⟨parent, hparent, -⟩ := Relation.TransGen.head'_iff.1 hcycle
    exact htop parent hparent
  | head hstep _ ih =>
    -- a cycle through a block goes through its only parent
    intro hcycle
    obtain ⟨parent, hparent, hback⟩ := Relation.TransGen.head'_iff.1 hcycle
    obtain rfl := hstep.unique hparent
    exact ih (Relation.TransGen.tail' hback hstep)

end Dict

namespace Sheet.Drafted

variable {σ : Sheet BlockId} {outer : List SymbolTables} {d : Draft}

/-- Every block belongs to a script. -/
theorem exists_script (h : σ.Drafted outer d) {id : BlockId} (hid : (d.blocks.find? id).isSome) :
    ∃ (c : Chain BlockId) (place : Place), c.Held d.graph { place := some place } ∧ c.tags.Nodup ∧
      id ∈ c.tags := by
  obtain ⟨c, hc, hmem⟩ := List.mem_flatMap.1 ((h.keys id).1 hid)
  obtain ⟨i, hi⟩ := List.mem_iff_getElem?.1 hc
  exact ⟨c, _, h.held i c hi, (List.nodup_flatMap.1 h.nodup).1 c hc, hmem⟩

/-- What is referred to is a child of the block that refers to it, and that from one place only. -/
theorem refers (h : σ.Drafted outer d) {holder id : BlockId} {spot : Spot}
    (hrefers : d.blocks.Refers holder spot id) :
    d.blocks.IsChild holder spot id ∧ ∀ spot', d.blocks.Refers holder spot' id → spot' = spot := by
  have hholder : (d.blocks.find? holder).isSome := by
    obtain ⟨b, hb, -⟩ := hrefers
    exact Option.isSome_iff_exists.2 ⟨b, hb⟩
  obtain ⟨c, place, hc, hnd, hmem⟩ := h.exists_script hholder
  obtain ⟨node, slots, rest, s, hheld, hsub⟩ := hc.subtree holder hmem
  obtain ⟨hlink, hchild⟩ := hheld.refers hrefers
  refine ⟨hchild, fun spot' hrefers' ↦ ?_⟩
  obtain ⟨hlink', -⟩ := hheld.refers hrefers'
  have hlinks : ((Chain.cons holder node slots rest).links.map Prod.snd).Nodup :=
    (List.nodup_cons.1 (hnd.sublist hsub)).2.sublist (Chain.links_sublist_tags ..)
  have hsame := List.inj_on_of_nodup_map hlinks hlink' hlink rfl
  exact congrArg Prod.fst hsame

/-- Every block is linked to the start of its script. -/
theorem reaches (h : σ.Drafted outer d) {id : BlockId} (hid : (d.blocks.find? id).isSome) :
    ∃ top b, Relation.ReflTransGen d.blocks.Link top id ∧ d.blocks.find? top = some b ∧
      b.parent = none ∧ b.isTopLevel = true ∧ b.shadow = false := by
  obtain ⟨c, place, hc, -, hmem⟩ := h.exists_script hid
  obtain ⟨top, htop, hreach⟩ := hc.reaches id hmem
  obtain ⟨b, hb, hparent, hplace, hshadow⟩ := hc.start_setting htop
  exact ⟨top, b, hreach, hb, hparent, by simp [Block.isTopLevel, hplace], hshadow⟩

/-- A block starts a script or is referred to by its parent. -/
theorem start_or_refers (h : σ.Drafted outer d) {id : BlockId} {b : Block}
    (hb : d.blocks.find? id = some b) :
    (b.parent = none ∧ b.isTopLevel = true ∧ b.shadow = false) ∨
      ∃ holder spot, d.blocks.Refers holder spot id := by
  obtain ⟨top, b', hreach, hb', hstart⟩ := h.reaches (Option.isSome_iff_exists.2 ⟨b, hb⟩)
  rcases hreach.cases_tail with rfl | ⟨holder, -, spot, hrefers⟩
  · obtain rfl := Option.some.inj (hb.symm.trans hb')
    exact .inl hstart
  · exact .inr ⟨holder, spot, hrefers⟩

theorem isChild (h : σ.Drafted outer d) {holder id : BlockId} {spot : Spot} {b : Block}
    (hb : d.blocks.find? id = some b) (hrefers : d.blocks.Refers holder spot id) :
    b.parent = some holder ∧ b.isTopLevel = false ∧ b.shadow = spot.isShadow := by
  obtain ⟨b', hb', hparent, hplace, hshadow⟩ := (h.refers hrefers).1
  obtain rfl := Option.some.inj (hb.symm.trans hb')
  exact ⟨hparent, by simp [Block.isTopLevel, hplace], hshadow⟩

/-- A block is named by one other at most, in one spot. -/
theorem refers_unique (h : σ.Drafted outer d) {holder holder' id : BlockId} {spot spot' : Spot}
    (hrefers : d.blocks.Refers holder spot id) (hrefers' : d.blocks.Refers holder' spot' id) :
    holder' = holder ∧ spot' = spot := by
  obtain ⟨⟨b, hb, -⟩, honce⟩ := h.refers hrefers
  obtain ⟨hparent, -, -⟩ := h.isChild hb hrefers
  obtain ⟨hparent', -, -⟩ := h.isChild hb hrefers'
  obtain rfl := Option.some.inj (hparent.symm.trans hparent')
  exact ⟨rfl, honce spot' hrefers'⟩

/-- The parents of a block lead to the start of a script. -/
theorem climbs (h : σ.Drafted outer d) {id : BlockId} (hid : (d.blocks.find? id).isSome) :
    ∃ top b, Relation.ReflTransGen d.blocks.HasParent id top ∧ d.blocks.find? top = some b ∧
      b.parent = none ∧ b.isTopLevel = true := by
  obtain ⟨top, b, hreach, hb, hparent, htop, -⟩ := h.reaches hid
  refine ⟨top, b, ?_, hb, hparent, htop⟩
  refine Relation.ReflTransGen.mono ?_ _ _ (Relation.reflTransGen_swap.2 hreach)
  rintro child holder ⟨spot, hrefers⟩
  obtain ⟨⟨b, hb, hparent, -⟩, -⟩ := h.refers hrefers
  exact ⟨b, hb, hparent⟩

/-- No block is among its own ancestors: the climb ends at a block without a parent. -/
theorem not_transGen_self (h : σ.Drafted outer d) (id : BlockId) :
    ¬ Relation.TransGen d.blocks.HasParent id id := by
  intro hcycle
  obtain ⟨parent, ⟨b, hb, -⟩, -⟩ := Relation.TransGen.head'_iff.1 hcycle
  obtain ⟨top, b', hclimb, hb', hparent, -⟩ := h.climbs (Option.isSome_iff_exists.2 ⟨b, hb⟩)
  refine Dict.not_transGen_self ?_ hclimb hcycle
  rintro parent ⟨b'', hb'', hsome⟩
  obtain rfl := Option.some.inj (hb'.symm.trans hb'')
  rw [hparent] at hsome
  cases hsome

/-- The blocks that are shadows are those that stand as a shadow. -/
theorem isShadow_iff (h : σ.Drafted outer d) {id : BlockId} {b : Block}
    (hb : d.blocks.find? id = some b) :
    b.shadow = true ↔ ∃ holder input, d.blocks.Refers holder (.shadow input) id := by
  constructor
  · intro hshadow
    rcases h.start_or_refers hb with ⟨-, -, hplain⟩ | ⟨holder, spot, hrefers⟩
    · rw [hplain] at hshadow
      cases hshadow
    · have hspot := (h.isChild hb hrefers).2.2
      rw [hshadow] at hspot
      cases spot with
      | next => cases hspot
      | value => cases hspot
      | shadow input => exact ⟨holder, input, hrefers⟩
  · rintro ⟨holder, input, hrefers⟩
    exact (h.isChild hb hrefers).2.2

/-- The blocks of a draft form a forest. -/
theorem isForest (h : σ.Drafted outer d) : d.blocks.IsForest := by
  refine ⟨fun holder spot id hrefers ↦ ?_, fun id b hb hlevel ↦ ?_, fun id b hb hlevel ↦ ?_,
    fun id b hb ↦ (h.isShadow_iff hb).symm, fun id hid ↦ ?_, h.not_transGen_self⟩
  · obtain ⟨⟨b, hb, -⟩, -⟩ := h.refers hrefers
    exact Option.isSome_iff_exists.2 ⟨b, hb⟩
  · rcases h.start_or_refers hb with ⟨-, htop, -⟩ | ⟨holder, spot, hrefers⟩
    · rw [hlevel] at htop
      cases htop
    · obtain ⟨hparent, -, -⟩ := h.isChild hb hrefers
      exact ⟨holder, spot, hrefers, hparent,
        fun holder' spot' hrefers' ↦ h.refers_unique hrefers hrefers'⟩
  · have hnone : ∀ holder spot, ¬ d.blocks.Refers holder spot id := by
      intro holder spot hrefers
      obtain ⟨-, hplace, -⟩ := h.isChild hb hrefers
      rw [hlevel] at hplace
      cases hplace
    rcases h.start_or_refers hb with ⟨hparent, -, -⟩ | ⟨holder, spot, hrefers⟩
    · exact ⟨hparent, hnone⟩
    · exact absurd hrefers (hnone holder spot)
  · obtain ⟨top, b, hclimb, hb, -, htop⟩ := h.climbs hid
    exact ⟨top, b, hclimb, hb, htop⟩

end Sheet.Drafted

/-- **The blocks of a target form a forest**, whatever its lines and its catalog, as long as the
commands of the catalog name their slots apart. -/
theorem Script.isForest_of_build {catalog : Catalog} (hcat : catalog.HasDistinctSlots)
    {kind : TargetKind} {sources : List SourceLine} {built : TargetBuild}
    (h : build catalog kind sources = .ok built) : built.target.blocks.IsForest := by
  obtain ⟨σ, d, -, hσ, rfl⟩ := drafted_of_build hcat h
  exact hσ.isForest

/-- A catalog with a conditional and a command that has a menu. -/
def Catalog.pocket : Catalog where
  commands := .ofList [
    ("if", { name := "if", opcode? := some Opcode.ifThen, kind := .nesting, inputs := [
      { name := "CONDITION", source := .rest 0, kind := .boolean }] }),
    ("else", { name := "else", kind := .otherwise }),
    ("end", { name := "end", kind := .finish }),
    ("go_to",
      { name := "go_to", opcode? := some "motion_goto", inputs := [
        { name := "TO", source := .index 0, kind := .menu,
          menuOpcode := some "motion_goto_menu" }] })]
  aliases := ∅

/-- A conditional with two branches, whose condition is negated after it was made, and a menu in
each branch. -/
def conditionalLines : List SourceLine :=
  [⟨1, "if 1 >= 2"⟩, ⟨2, "go_to mouse"⟩, ⟨3, "else"⟩, ⟨4, "go_to edge"⟩, ⟨5, "end"⟩]

theorem Script.isForest_of_build_conditional :
    Catalog.pocket.HasDistinctSlots ∧ ∃ built, build .pocket .sprite conditionalLines = .ok built ∧
      built.blockCount = 8 ∧ built.target.blocks.IsForest := by
  have hcat : Catalog.pocket.HasDistinctSlots := by decide +kernel
  have hcount : (build .pocket .sprite conditionalLines).toOption.map (·.blockCount) = some 8 := by
    decide +kernel
  cases hbuild : build .pocket .sprite conditionalLines with
  | error e =>
    rw [hbuild] at hcount
    cases hcount
  | ok built =>
    rw [hbuild] at hcount
    exact ⟨hcat, built, rfl, Option.some.inj hcount, isForest_of_build hcat hbuild⟩

end BlockScript

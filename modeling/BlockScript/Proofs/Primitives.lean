import BlockScript.Proofs.JsonOrder
import BlockScript.Project.Decode

/-!
# Blocks made for what stands in a slot

A document may write a variable, a list or a broadcast right into a slot, as its value or as its
fallback. Such a `Primitive` stands at a `Site`: a block, an input of it and one of the two places.
Reading a document makes a block for the primitive of every site (`mem_made_iff`), under an
identifier that is composed of the parts of the site, and the slot refers to that identifier if it
takes what stands there (`stored_readSlot`).

The blocks that the document describes are put in first, then the made ones in order, each unless
its identifier is in use (`find?_foldl_putMade`). So every described block is there, and under the
identifier of a site stands the block described under it, or else the block made for some site with
that identifier (`readBlocks_primitive`). It is the block of the primitive wherever the site is on
its own; that is so for every site when no identifier and no input of the document has a colon
(`Site.isAlone_of_colonFree`).

All this asks of a document is that the inputs of a block are listed in order, each once. That is so
for the blocks of every target that was read from a text (`exists_blocks_of_readTarget`).
-/

namespace BlockScript.Project

/-! ### Primitives -/

/-- What may stand in a slot without a block of its own. -/
inductive PrimitiveKind where
  | var
  | list
  | broadcast
deriving DecidableEq, Repr

namespace PrimitiveKind

/-- The kind that a number stands for. -/
def ofCode? (code : Nat) : Option PrimitiveKind :=
  if code = 12 then some .var
  else if code = 13 then some .list
  else if code = 11 then some .broadcast
  else none

/-- What its block does. -/
def opcode : PrimitiveKind → String
  | var => "data_variable"
  | list => "data_listcontents"
  | broadcast => "event_broadcast_menu"

/-- The field of its block. -/
def field : PrimitiveKind → String
  | var => "VARIABLE"
  | list => "LIST"
  | broadcast => "BROADCAST_OPTION"

end PrimitiveKind

/-- A variable, a list or a broadcast in a slot. -/
structure Primitive where
  /-- Which of the three it is. -/
  kind : PrimitiveKind
  /-- The name shown. -/
  text : String
  /-- The identifier of the symbol that is meant. -/
  symbol : Option String
deriving DecidableEq, Repr

namespace Primitive

/-- Whether it is a menu, and not a value. -/
def isMenu (p : Primitive) : Bool :=
  p.kind == .broadcast

/-- The block of a primitive in a slot of another block. -/
def block (p : Primitive) (owner : BlockId) : Block where
  opcode := p.kind.opcode
  parent := some owner
  shadow := p.isMenu
  fields := .ofList [(p.kind.field, ⟨p.text, p.symbol⟩)]

/-- The block that a slot refers to for a primitive: values and menus have different parts of a
slot. -/
def stored? (p : Primitive) (slot : Slot) : Option BlockId :=
  if p.isMenu then slot.shadow? else slot.connected?

/-- The primitive that is described, if any. -/
def ofJson? (raw : Json) : Option Primitive := do
  let items ← raw.asArr?
  let kind ← PrimitiveKind.ofCode? (← items.head?.bind Json.asNat?)
  return ⟨kind, ((items[1]?).map scalarText).getD "", (items[2]?).bind Json.asStr?⟩

/-- What is read for a primitive. -/
def element (p : Primitive) (owner id : BlockId) : Element :=
  if p.isMenu then .menu id (p.block owner) else .reporter id (p.block owner)

variable {p : Primitive}

theorem element_of_isMenu (h : p.isMenu = true) (owner id : BlockId) :
    p.element owner id = .menu id (p.block owner) :=
  if_pos h

theorem element_of_not_isMenu (h : p.isMenu = false) (owner id : BlockId) :
    p.element owner id = .reporter id (p.block owner) :=
  if_neg (ne_true_of_eq_false h)

theorem stored?_of_isMenu (h : p.isMenu = true) (slot : Slot) : p.stored? slot = slot.shadow? :=
  if_pos h

theorem stored?_of_not_isMenu (h : p.isMenu = false) (slot : Slot) :
    p.stored? slot = slot.connected? :=
  if_neg (ne_true_of_eq_false h)

end Primitive

/-- A place of a slot that starts with a number is a primitive or a constant. -/
theorem parse?_arr (owner id : BlockId) {items : List Json} {code : Nat}
    (h : items.head?.bind Json.asNat? = some code) :
    Element.parse? owner id (.arr items) =
      some (match Primitive.ofJson? (.arr items) with
        | some p => p.element owner id
        | none => .literal ⟨LiteralKind.ofCode code, ((items[1]?).map scalarText).getD ""⟩) := by
  have hp : Primitive.ofJson? (.arr items) = (PrimitiveKind.ofCode? code).map fun kind ↦
      ⟨kind, ((items[1]?).map scalarText).getD "", (items[2]?).bind Json.asStr?⟩ := by
    simp only [Primitive.ofJson?, Json.asArr?, Option.bind_eq_bind, Option.bind_some, h]
    cases PrimitiveKind.ofCode? code <;> rfl
  rw [hp]
  simp only [Element.parse?, h, Option.bind_eq_bind, Option.bind_some, PrimitiveKind.ofCode?]
  split_ifs <;> rfl

/-- A primitive is read as its block. -/
theorem parse?_of_ofJson? {raw : Json} {p : Primitive} (h : Primitive.ofJson? raw = some p)
    (owner id : BlockId) : Element.parse? owner id raw = some (p.element owner id) := by
  obtain ⟨items, hitems, hrest⟩ := Option.bind_eq_some_iff.1 h
  obtain ⟨code, hcode, -⟩ := Option.bind_eq_some_iff.1 hrest
  cases raw <;> cases hitems
  rw [parse?_arr owner id hcode, h]

/-- Only primitives make blocks. -/
theorem made_parse? (owner id : BlockId) (raw : Json) :
    (Element.parse? owner id raw).toList.flatMap Element.made =
      (Primitive.ofJson? raw).toList.map fun p ↦ (id, p.block owner) := by
  cases hp : Primitive.ofJson? raw with
  | some p =>
    rw [parse?_of_ofJson? hp]
    unfold Primitive.element
    split <;> rfl
  | none =>
    cases raw with
    | arr items =>
      cases hcode : items.head?.bind Json.asNat? with
      | none => simp [Element.parse?, hcode]
      | some code =>
        rw [parse?_arr owner id hcode, hp]
        rfl
    | _ => rfl

/-! ### Sites -/

/-- The two places of a slot. -/
inductive SlotPlace where
  | value
  | fallback
deriving DecidableEq, Repr

namespace SlotPlace

/-- Where the place stands in the description of a slot. -/
def index : SlotPlace → Nat
  | value => 1
  | fallback => 2

/-- What tells the identifier of the place. -/
def suffix : SlotPlace → String
  | value => ""
  | fallback => ":shadow"

end SlotPlace

/-- What stands at a place of a slot. -/
def placed? (raw : Json) (place : SlotPlace) : Option Json := do
  let items ← raw.asArr?
  -- a description without its number is none
  let _ ← items.head?.bind Json.asNat?
  items[place.index]?

/-- Whether a slot takes the primitive at a place: a value in the first place always, a menu there
if it is alone in the slot, and a menu in the second place if the slot asks for both or the first
place has a value that is a primitive. -/
def Takes (raw : Json) (tag : Nat) (p : Primitive) : SlotPlace → Prop
  | .value => p.isMenu = true → tag = 1 ∨ tag = 2
  | .fallback => p.isMenu = true ∧
      (tag = 3 ∨ ∃ q, (placed? raw .value).bind Primitive.ofJson? = some q ∧ q.isMenu = false)

/-- The inputs that a block is described with. -/
def inputsOf (block : Json) : List (String × Json) :=
  (block.getObj? "inputs").getD []

/-- A place in a slot of a block. -/
structure Site where
  /-- The block. -/
  owner : BlockId
  /-- The input. -/
  input : String
  /-- The place. -/
  place : SlotPlace
deriving DecidableEq, Repr

namespace Site

/-- The identifier of the block that is made for a site. -/
def id (site : Site) : BlockId :=
  site.owner ++ ":" ++ site.input ++ site.place.suffix

/-- The description of the slot of a site. -/
def slot? (raw : Dict Json) (site : Site) : Option Json :=
  (raw.find? site.owner).bind fun block ↦ Dict.lookup site.input (inputsOf block)

/-- The primitive at a site. -/
def primitive? (raw : Dict Json) (site : Site) : Option Primitive :=
  (site.slot? raw).bind fun slot ↦ (placed? slot site.place).bind Primitive.ofJson?

/-- Whether the slot of a site takes the primitive that stands there. -/
def IsTaken (raw : Dict Json) (site : Site) (p : Primitive) : Prop :=
  ∃ slot tag, site.slot? raw = some slot ∧
    slot.asArr?.bind (·.head?.bind Json.asNat?) = some tag ∧ Takes slot tag p site.place

/-- A site is on its own when its identifier is that of no block and of no other site. -/
structure IsAlone (raw : Dict Json) (site : Site) : Prop where
  /-- The document describes no block of that identifier. -/
  free : ∀ fields, raw.find? site.id ≠ some (.obj fields)
  /-- No other site has a block made for it under that identifier. -/
  unique : ∀ other : Site, (other.primitive? raw).isSome = true → other.id = site.id → other = site

end Site

/-! ### Slots -/

/-- What is read at a site, given the parts of the description of its slot. -/
def Site.element? (site : Site) (items : List Json) : Option Element :=
  (items[site.place.index]?).bind (Element.parse? site.owner site.id)

section Parts

variable {items : List Json} {tag : Nat} (htag : items.head?.bind Json.asNat? = some tag)

include htag

theorem readSlot_arr (owner : BlockId) (input : String) :
    readSlot owner input (.arr items) =
      (slotOf tag (Site.element? ⟨owner, input, .value⟩ items)
          (Site.element? ⟨owner, input, .fallback⟩ items),
        (Site.element? ⟨owner, input, .value⟩ items).toList.flatMap Element.made ++
          (Site.element? ⟨owner, input, .fallback⟩ items).toList.flatMap Element.made) := by
  simp only [readSlot, htag, Site.element?, Site.id, SlotPlace.index, SlotPlace.suffix,
    String.append_empty, List.flatMap_append]

theorem placed?_arr (place : SlotPlace) : placed? (.arr items) place = items[place.index]? := by
  simp only [placed?, Json.asArr?, Option.bind_eq_bind, Option.bind_some, htag]

/-- A site makes the block of the primitive that stands there, and no other. -/
theorem made_element? (site : Site) :
    (site.element? items).toList.flatMap Element.made =
      ((placed? (.arr items) site.place).bind Primitive.ofJson?).toList.map fun p ↦
        (site.id, p.block site.owner) := by
  rw [placed?_arr htag, Site.element?]
  cases items[site.place.index]? with
  | none => rfl
  | some raw => exact made_parse? site.owner site.id raw

theorem element?_of_primitive {site : Site} {p : Primitive}
    (hp : (placed? (.arr items) site.place).bind Primitive.ofJson? = some p) :
    site.element? items = some (p.element site.owner site.id) := by
  obtain ⟨raw, hraw, hp⟩ := Option.bind_eq_some_iff.1 hp
  rw [placed?_arr htag] at hraw
  rw [Site.element?, hraw, Option.bind_some, parse?_of_ofJson? hp]

end Parts

/-- The blocks made for a slot are those of the primitives in its places. -/
theorem mem_made_readSlot {owner : BlockId} {input : String} {raw : Json}
    {entry : BlockId × Block} :
    entry ∈ (readSlot owner input raw).2 ↔ ∃ place p,
      (placed? raw place).bind Primitive.ofJson? = some p ∧
        entry = ((⟨owner, input, place⟩ : Site).id, p.block owner) := by
  cases raw with
  | arr items =>
    cases htag : items.head?.bind Json.asNat? with
    | none => simp [readSlot, placed?, Json.asArr?, htag]
    | some tag =>
      simp only [readSlot_arr htag, made_element? htag, List.mem_append, List.mem_map,
        Option.mem_toList]
      constructor
      · rintro (⟨p, hp, rfl⟩ | ⟨p, hp, rfl⟩)
        · exact ⟨.value, p, hp, rfl⟩
        · exact ⟨.fallback, p, hp, rfl⟩
      · rintro ⟨- | -, p, hp, rfl⟩
        · exact .inl ⟨p, hp, rfl⟩
        · exact .inr ⟨p, hp, rfl⟩
  | _ => simp [readSlot, placed?, Json.asArr?]

theorem connected?_coveredSlot (id : BlockId) (second : Option Element) :
    (coveredSlot id second).connected? = some id := by
  unfold coveredSlot
  split <;> rfl

/-- The slot refers to the identifier of a site if it takes what stands there. -/
theorem stored_readSlot {site : Site} {raw : Json} {tag : Nat} {p : Primitive}
    (htag : raw.asArr?.bind (·.head?.bind Json.asNat?) = some tag)
    (hp : (placed? raw site.place).bind Primitive.ofJson? = some p)
    (h : Takes raw tag p site.place) :
    ∃ slot, (readSlot site.owner site.input raw).1 = some slot ∧ p.stored? slot = some site.id := by
  obtain ⟨items, hitems, htag⟩ := Option.bind_eq_some_iff.1 htag
  cases raw <;> cases hitems
  have helement := element?_of_primitive htag hp
  obtain ⟨owner, input, place⟩ := site
  rw [readSlot_arr htag]
  cases place with
  | value =>
    rw [helement]
    cases hmenu : p.isMenu with
    | true =>
      simp only [Primitive.element_of_isMenu hmenu, Primitive.stored?_of_isMenu hmenu]
      obtain rfl | rfl := h hmenu <;> exact ⟨_, rfl, rfl⟩
    | false =>
      simp only [Primitive.element_of_not_isMenu hmenu, Primitive.stored?_of_not_isMenu hmenu]
      exact ⟨_, rfl, connected?_coveredSlot _ _⟩
  | fallback =>
    obtain ⟨hmenu, hother⟩ := h
    rw [helement, Primitive.element_of_isMenu hmenu]
    simp only [Primitive.stored?_of_isMenu hmenu]
    -- the slot shows its fallback only where the menu is the third kind, or under a value
    rcases hother with rfl | ⟨q, hq, hvalue⟩
    · rcases Site.element? ⟨owner, input, .value⟩ items with
        - | (id | value | ⟨id, b⟩ | ⟨id, b⟩) <;>
        exact ⟨_, rfl, rfl⟩
    · have hfirst : Site.element? ⟨owner, input, .value⟩ items = _ := element?_of_primitive htag hq
      rw [hfirst, Primitive.element_of_not_isMenu hvalue]
      exact ⟨_, rfl, rfl⟩

/-! ### Putting blocks in their places -/

/-- A block that is made is found if no block was there before and none is made earlier. -/
theorem find?_foldl_putMade (made : List (BlockId × Block)) :
    ∀ (blocks : Dict Block) (id : BlockId),
    (made.foldl putMade blocks).find? id = (blocks.find? id).or (Dict.lookup id made) := by
  induction made with
  | nil => exact fun blocks id ↦ (Option.or_none).symm
  | cons entry made ih =>
    intro blocks id
    rw [List.foldl_cons, ih, putMade]
    split
    · next htaken =>
      obtain ⟨b, hb⟩ := Dict.contains_iff.1 htaken
      by_cases hid : entry.1 = id
      · rw [← hid, hb, Option.some_or, Option.some_or]
      · simp [Dict.lookup, hid]
    · next hfree =>
      rw [Dict.find?_insert]
      by_cases hid : entry.1 = id
      · have hnone : blocks.find? entry.1 = none := by
          simpa [Dict.contains] using hfree
        simp [Dict.lookup, ← hid, hnone]
      · simp [Dict.lookup, hid, Ne.symm hid]

/-! ### Blocks of a document -/

/-- What is read of a description under an identifier, with the blocks made for it. -/
def readItem? (entry : String × Json) : Option (BlockId × Block × List (BlockId × Block)) :=
  match entry.2 with
  | .obj _ => some (entry.1, readBlock entry.1 entry.2)
  | _ => none

theorem readBlocks_eq (raw : List (String × Json)) :
    readBlocks raw = ((raw.filterMap readItem?).flatMap (·.2.2)).foldl putMade
      (Dict.ofList ((raw.filterMap readItem?).map fun read ↦ (read.1, read.2.1))) :=
  rfl

theorem readItem?_eq_some {entry : String × Json}
    {read : BlockId × Block × List (BlockId × Block)} :
    readItem? entry = some read ↔
      ∃ id fields, entry = (id, .obj fields) ∧ read = (id, readBlock id (.obj fields)) := by
  obtain ⟨id, value⟩ := entry
  cases value <;> simp [readItem?, eq_comm]

section Document

variable {raw : Dict Json}

theorem mem_read_iff {read : BlockId × Block × List (BlockId × Block)} :
    read ∈ raw.entries.filterMap readItem? ↔
      ∃ id fields, raw.find? id = some (.obj fields) ∧ read = (id, readBlock id (.obj fields)) := by
  simp only [List.mem_filterMap, readItem?_eq_some]
  constructor
  · rintro ⟨-, hmem, id, fields, rfl, rfl⟩
    exact ⟨id, fields, Dict.mem_entries_iff.1 hmem, rfl⟩
  · rintro ⟨id, fields, hfind, rfl⟩
    exact ⟨_, Dict.mem_entries_iff.2 hfind, id, fields, rfl, rfl⟩

/-- The described blocks are found under their identifiers. -/
theorem find?_described {id : BlockId} {b : Block} :
    (Dict.ofList ((raw.entries.filterMap readItem?).map fun read ↦ (read.1, read.2.1))).find? id =
        some b ↔
      ∃ fields, raw.find? id = some (.obj fields) ∧ b = (readBlock id (.obj fields)).1 := by
  have hnodup : (((raw.entries.filterMap readItem?).map fun read ↦ (read.1, read.2.1)).map
      Prod.fst).Nodup := by
    rw [List.map_map, List.Nodup, List.pairwise_map, List.pairwise_filterMap]
    refine raw.sorted.imp fun {x y} hlt a ha b hb ↦ ?_
    obtain ⟨id, fields, rfl, rfl⟩ := readItem?_eq_some.1 ha
    obtain ⟨other, fields', rfl, rfl⟩ := readItem?_eq_some.1 hb
    exact Dict.key_ne_of_lt hlt
  rw [← Dict.mem_entries_iff, (Dict.perm_entries_ofList hnodup).mem_iff, List.mem_map]
  constructor
  · rintro ⟨read, hmem, heq⟩
    obtain ⟨id, fields, hfind, rfl⟩ := mem_read_iff.1 hmem
    obtain ⟨rfl, rfl⟩ := Prod.mk.inj heq
    exact ⟨fields, hfind, rfl⟩
  · rintro ⟨fields, hfind, rfl⟩
    exact ⟨_, mem_read_iff.2 ⟨id, fields, hfind, rfl⟩, rfl⟩

/-- A document lists the inputs of a block in order, each once. -/
def HasOrderedInputs (raw : Dict Json) : Prop :=
  ∀ entry ∈ raw.entries, (inputsOf entry.2).Pairwise fun a b ↦ a.1 < b.1

instance : DecidablePred HasOrderedInputs := fun raw ↦
  inferInstanceAs (Decidable (∀ entry ∈ raw.entries, _))

/-- Inputs in an ordered value are in order. -/
theorem hasOrderedInputs_of_isOrdered (h : ∀ entry ∈ raw.entries, entry.2.IsOrdered) :
    HasOrderedInputs raw := by
  intro entry hentry
  rw [inputsOf]
  cases hinputs : entry.2.getObj? "inputs" with
  | none => exact List.Pairwise.nil
  | some inputs => exact ((h entry hentry).of_getObj? hinputs).1

/-- **The blocks of a target that was read from a text** are those of an object whose inputs are in
order. -/
theorem exists_blocks_of_readTarget {text : String} {document : Json}
    (h : Json.parse? text = some document) {targets : List Json}
    (htargets : document.getArr? "targets" = some targets) {target : Json} (hmem : target ∈ targets)
    {files : Files} {t : Target} (hread : readTarget files target = .ok t) :
    ∃ blocks : Dict Json, target.getObj? "blocks" = some blocks.entries ∧
      HasOrderedInputs blocks ∧ t.blocks = readBlocks blocks.entries := by
  have htarget := (Json.isOrdered_of_parse? h).of_getArr? htargets target hmem
  unfold readTarget at hread
  split at hread
  · cases hread
  dsimp only at hread
  split at hread
  · cases hread
  next fields hblocks =>
  obtain rfl := Except.ok.inj hread
  obtain ⟨hsorted, hfields⟩ := htarget.of_getObj? hblocks
  exact ⟨⟨fields, hsorted⟩, hblocks, hasOrderedInputs_of_isOrdered hfields, rfl⟩

/-- The description of a slot is among the inputs of a block. -/
theorem slot?_eq_some (hraw : HasOrderedInputs raw) {site : Site} {slot : Json} :
    site.slot? raw = some slot ↔ ∃ fields, raw.find? site.owner = some (.obj fields) ∧
      (site.input, slot) ∈ inputsOf (.obj fields) := by
  have hordered : ∀ block, raw.find? site.owner = some block →
      (inputsOf block).Pairwise fun a b ↦ a.1 < b.1 :=
    fun block hblock ↦ hraw _ (Dict.mem_entries_iff.2 hblock)
  unfold Site.slot?
  rw [Option.bind_eq_some_iff]
  constructor
  · rintro ⟨block, hblock, hlookup⟩
    rw [Dict.lookup_eq_some_iff (hordered block hblock)] at hlookup
    cases block with
    | obj fields => exact ⟨fields, hblock, hlookup⟩
    | _ => cases hlookup
  · rintro ⟨fields, hblock, hmem⟩
    exact ⟨_, hblock, (Dict.lookup_eq_some_iff (hordered _ hblock)).2 hmem⟩

theorem readBlock_made (id : BlockId) (raw : Json) :
    (readBlock id raw).2 = (inputsOf raw).flatMap fun input ↦ (readSlot id input.1 input.2).2 := by
  simp only [readBlock, inputsOf, List.flatMap_map]

theorem readBlock_inputs (id : BlockId) (raw : Json) :
    (readBlock id raw).1.inputs = Dict.ofList ((inputsOf raw).filterMap fun input ↦
      (readSlot id input.1 input.2).1.map (input.1, ·)) := by
  simp [readBlock, inputsOf, List.filterMap_map]

/-- The blocks that are made are those of the primitives of all sites. -/
theorem mem_made_iff (hraw : HasOrderedInputs raw) {entry : BlockId × Block} :
    entry ∈ (raw.entries.filterMap readItem?).flatMap (·.2.2) ↔
      ∃ site p, Site.primitive? raw site = some p ∧ entry = (site.id, p.block site.owner) := by
  rw [List.mem_flatMap]
  constructor
  · rintro ⟨read, hread, hentry⟩
    obtain ⟨id, fields, hfind, rfl⟩ := mem_read_iff.1 hread
    rw [readBlock_made, List.mem_flatMap] at hentry
    obtain ⟨⟨input, slot⟩, hmem, hentry⟩ := hentry
    obtain ⟨place, p, hp, rfl⟩ := mem_made_readSlot.1 hentry
    have hslot : Site.slot? raw ⟨id, input, place⟩ = some slot :=
      (slot?_eq_some hraw).2 ⟨fields, hfind, hmem⟩
    refine ⟨⟨id, input, place⟩, p, ?_, rfl⟩
    rw [Site.primitive?, hslot]
    exact hp
  · rintro ⟨site, p, hp, rfl⟩
    obtain ⟨slot, hslot, hp⟩ := Option.bind_eq_some_iff.1 hp
    obtain ⟨fields, hfind, hmem⟩ := (slot?_eq_some hraw).1 hslot
    refine ⟨_, mem_read_iff.2 ⟨site.owner, fields, hfind, rfl⟩, ?_⟩
    rw [readBlock_made, List.mem_flatMap]
    exact ⟨_, hmem, mem_made_readSlot.2 ⟨site.place, p, hp, rfl⟩⟩

/-- A block has the slots of its inputs. -/
theorem find?_inputs_readBlock {id : BlockId} {block slotRaw : Json} {input : String} {slot : Slot}
    (hordered : (inputsOf block).Pairwise fun a b ↦ a.1 < b.1)
    (hmem : (input, slotRaw) ∈ inputsOf block) (h : (readSlot id input slotRaw).1 = some slot) :
    (readBlock id block).1.inputs.find? input = some slot := by
  have hnodup : (((inputsOf block).filterMap fun input ↦
      (readSlot id input.1 input.2).1.map (input.1, ·)).map Prod.fst).Nodup := by
    rw [List.Nodup, List.pairwise_map, List.pairwise_filterMap]
    refine hordered.imp fun {x y} hlt a ha b hb ↦ ?_
    obtain ⟨-, -, rfl⟩ := Option.map_eq_some_iff.1 ha
    obtain ⟨-, -, rfl⟩ := Option.map_eq_some_iff.1 hb
    exact Dict.key_ne_of_lt hlt
  rw [readBlock_inputs, ← Dict.mem_entries_iff, (Dict.perm_entries_ofList hnodup).mem_iff,
    List.mem_filterMap]
  exact ⟨(input, slotRaw), hmem, by rw [h]; rfl⟩

/-! ### Look-up -/

/-- Described blocks stay in their places. -/
theorem find?_readBlocks_obj {id : BlockId} {fields : List (String × Json)}
    (h : raw.find? id = some (.obj fields)) :
    (readBlocks raw.entries).find? id = some (readBlock id (.obj fields)).1 := by
  rw [readBlocks_eq, find?_foldl_putMade, find?_described.2 ⟨fields, h, rfl⟩, Option.some_or]

/-- Under the identifier of a site that no described block has, there is the block that was made for
some site with that identifier. -/
theorem find?_readBlocks_made (hraw : HasOrderedInputs raw) {site : Site} {p : Primitive}
    (hp : site.primitive? raw = some p) (hfree : ∀ fields, raw.find? site.id ≠ some (.obj fields)) :
    ∃ other q, Site.primitive? raw other = some q ∧ other.id = site.id ∧
      (readBlocks raw.entries).find? site.id = some (q.block other.owner) := by
  have hnone : (Dict.ofList ((raw.entries.filterMap readItem?).map fun read ↦
      (read.1, read.2.1))).find? site.id = none := by
    refine Option.eq_none_iff_forall_ne_some.2 fun b hb ↦ ?_
    obtain ⟨fields, hfind, -⟩ := find?_described.1 hb
    exact hfree fields hfind
  rw [readBlocks_eq, find?_foldl_putMade, hnone, Option.none_or]
  obtain ⟨b, hlookup, hmem⟩ := Dict.exists_lookup_of_mem ((mem_made_iff hraw).2 ⟨site, p, hp, rfl⟩)
  obtain ⟨other, q, hq, heq⟩ := (mem_made_iff hraw).1 hmem
  obtain ⟨hid, rfl⟩ := Prod.mk.inj heq
  exact ⟨other, q, hq, hid.symm, hlookup⟩

/-- **Blocks of a document and blocks made for its slots.** -/
theorem readBlocks_primitive (hraw : HasOrderedInputs raw) :
    (∀ id fields, raw.find? id = some (.obj fields) →
      (readBlocks raw.entries).find? id = some (readBlock id (.obj fields)).1) ∧
    ∀ site p, Site.primitive? raw site = some p →
      (site.IsTaken raw p → ∃ b slot, (readBlocks raw.entries).find? site.owner = some b ∧
        b.inputs.find? site.input = some slot ∧ p.stored? slot = some site.id) ∧
      (site.IsAlone raw →
        (readBlocks raw.entries).find? site.id = some (p.block site.owner)) ∧
      ((∀ fields, raw.find? site.id ≠ some (.obj fields)) →
        ∃ other q, Site.primitive? raw other = some q ∧ other.id = site.id ∧
          (readBlocks raw.entries).find? site.id = some (q.block other.owner)) := by
  refine ⟨fun id fields ↦ find?_readBlocks_obj, fun site p hp ↦
    ⟨fun htaken ↦ ?_, fun halone ↦ ?_, find?_readBlocks_made hraw hp⟩⟩
  · obtain ⟨slotRaw, tag, hslot, htag, htakes⟩ := htaken
    rw [Site.primitive?, hslot, Option.bind_some] at hp
    obtain ⟨slot, hread, hstored⟩ := stored_readSlot htag hp htakes
    obtain ⟨fields, hfind, hmem⟩ := (slot?_eq_some hraw).1 hslot
    have hordered := hraw _ (Dict.mem_entries_iff.2 hfind)
    exact ⟨_, slot, find?_readBlocks_obj hfind, find?_inputs_readBlock hordered hmem hread, hstored⟩
  · obtain ⟨other, q, hq, hid, hfind⟩ := find?_readBlocks_made hraw hp halone.free
    obtain rfl := halone.unique other (by rw [hq]; rfl) hid
    rw [hp] at hq
    rw [hfind, Option.some.inj hq]

/-! ### Documents without colons -/

/-- No identifier of a block and no input has a colon. -/
def IsColonFree (raw : Dict Json) : Prop :=
  ∀ entry ∈ raw.entries, ':' ∉ entry.1.toList ∧ ∀ input ∈ inputsOf entry.2, ':' ∉ input.1.toList

instance : DecidablePred IsColonFree := fun raw ↦
  inferInstanceAs (Decidable (∀ entry ∈ raw.entries, _))

/-- The parts before and after the first colon. -/
theorem eq_of_append_colon {front front' back back' : List Char} (h : ':' ∉ front)
    (h' : ':' ∉ front') (heq : front ++ ':' :: back = front' ++ ':' :: back') :
    front = front' ∧ back = back' := by
  have htake : ∀ (l r : List Char), ':' ∉ l → (l ++ ':' :: r).takeWhile (· != ':') = l := by
    intro l r hl
    rw [List.takeWhile_append_of_pos fun c hc ↦ by
      simpa using fun hcolon : c = ':' ↦ hl (hcolon ▸ hc)]
    simp
  have hfront : front = front' := by
    rw [← htake front back h, heq, htake front' back' h']
  subst hfront
  exact ⟨rfl, by simpa using heq⟩

/-- The parts of a site can be told from its identifier if none of them has a colon. -/
theorem Site.eq_of_id_eq {site other : Site} (howner : ':' ∉ site.owner.toList)
    (howner' : ':' ∉ other.owner.toList) (hinput : ':' ∉ site.input.toList)
    (hinput' : ':' ∉ other.input.toList) (h : other.id = site.id) : other = site := by
  have hlist : ∀ s : Site, s.id.toList =
      s.owner.toList ++ ':' :: (s.input.toList ++ s.place.suffix.toList) := by
    intro s
    simp [Site.id, String.toList_append]
  have heq := congrArg String.toList h
  rw [hlist, hlist] at heq
  obtain ⟨hownerEq, hrest⟩ := eq_of_append_colon howner' howner heq
  obtain ⟨owner, input, place⟩ := site
  obtain ⟨owner', input', place'⟩ := other
  obtain rfl : owner' = owner := String.toList_inj.1 hownerEq
  -- an input without a colon does not end like a shadow
  have hends : ∀ {cs cs' : List Char}, ':' ∉ cs → cs ++ [] ≠ cs' ++ ":shadow".toList :=
    fun hcs hmixed ↦ hcs (by simpa using congrArg (':' ∈ ·) hmixed)
  cases place with
  | value =>
    cases place' with
    | value =>
      obtain rfl : input' = input := String.toList_inj.1 (List.append_cancel_right hrest)
      rfl
    | fallback => exact absurd hrest.symm (hends hinput)
  | fallback =>
    cases place' with
    | value => exact absurd hrest (hends hinput')
    | fallback =>
      obtain rfl : input' = input := String.toList_inj.1 (List.append_cancel_right hrest)
      rfl

/-- Without colons every site is on its own. -/
theorem Site.isAlone_of_colonFree (hraw : HasOrderedInputs raw) (hcolon : IsColonFree raw)
    {site : Site} {p : Primitive} (hp : site.primitive? raw = some p) : site.IsAlone raw := by
  have hparts : ∀ (s : Site) (q : Primitive), s.primitive? raw = some q →
      ':' ∉ s.owner.toList ∧ ':' ∉ s.input.toList := by
    intro s q hq
    obtain ⟨slot, hslot, -⟩ := Option.bind_eq_some_iff.1 hq
    obtain ⟨fields, hfind, hmem⟩ := (slot?_eq_some hraw).1 hslot
    have hentry := hcolon _ (Dict.mem_entries_iff.2 hfind)
    exact ⟨hentry.1, hentry.2 _ hmem⟩
  constructor
  · intro fields hfind
    have hid := (hcolon _ (Dict.mem_entries_iff.2 hfind)).1
    exact hid (by simp [Site.id, String.toList_append])
  · intro other hother hid
    obtain ⟨q, hq⟩ := Option.isSome_iff_exists.1 hother
    exact Site.eq_of_id_eq (hparts site p hp).1 (hparts other q hq).1 (hparts site p hp).2
      (hparts other q hq).2 hid

end Document

/-- A block that says the value of a variable. -/
def sampleBlocks : Dict Json :=
  .ofList [
    ("say", Json.object [
      ("opcode", .str "looks_say"),
      ("inputs", Json.object [
        ("MESSAGE", .arr [.nat 3, .arr [.nat 12, .str "score", .str "v1"],
          .arr [.nat 10, .str "hi"]])])])]

theorem readBlocks_sample :
    (∃ b slot, (readBlocks sampleBlocks.entries).find? "say" = some b ∧
        b.inputs.find? "MESSAGE" = some slot ∧ slot.connected? = some "say:MESSAGE") ∧
      (readBlocks sampleBlocks.entries).find? "say:MESSAGE" = some {
        opcode := "data_variable"
        parent := some "say"
        fields := .ofList [("VARIABLE", ⟨"score", some "v1"⟩)] } := by
  have hraw : HasOrderedInputs sampleBlocks := by decide +kernel
  have hcolon : IsColonFree sampleBlocks := by decide +kernel
  have hp : Site.primitive? sampleBlocks ⟨"say", "MESSAGE", .value⟩ =
      some ⟨.var, "score", some "v1"⟩ := by
    decide +kernel
  obtain ⟨htaken, halone, -⟩ := (readBlocks_primitive hraw).2 _ _ hp
  exact ⟨htaken ⟨_, 3, rfl, rfl, nofun⟩, halone (Site.isAlone_of_colonFree hraw hcolon hp)⟩

end BlockScript.Project

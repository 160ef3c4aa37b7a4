import BlockScript.Proofs.Acceptance

/-!
# The parts of a tree

A tree has many blocks, and a line that is read as a tree makes one block for each of them. Here
they are listed with what they hold (`Chain.parts`), so that something can be said about each of
them: in a graph that holds a tree each part has its block (`Chain.Held.part`), and the slots of the
part are inputs of that block (`Slots.Held.entry`).

Reading a command gives a tree that includes those of all expressions in its arguments
(`Reading.commandBlock_includes`).
-/

namespace BlockScript

/-! ### The blocks of a tree -/

/-- A block of a tree with its slots. -/
structure Part (α : Type) where
  /-- The tag of the block. -/
  tag : α
  /-- What it says. -/
  node : Node
  /-- What it holds. -/
  slots : Slots α

variable {α : Type}

mutual

/-- The blocks of a chain, each before what it holds. -/
def Chain.parts : Chain α → List (Part α)
  | .nil => []
  | .cons tag node slots rest => ⟨tag, node, slots⟩ :: (slots.parts ++ rest.parts)

/-- The blocks in slots. -/
def Slots.parts : Slots α → List (Part α)
  | .nil => []
  | .cons _ _ value shadow rest => shadow.parts ++ (value.parts ++ rest.parts)

end

/-- The slots one by one, each with its name. -/
def Slots.entries : Slots α → List (String × Content α)
  | .nil => []
  | .cons input constant value shadow rest => (input, ⟨constant, value, shadow⟩) :: rest.entries

/-- The part without its tags. -/
def Part.erase (p : Part α) : Part Unit := ⟨(), p.node, p.slots.erase⟩

mutual

/-- Forgetting tags commutes with taking the parts of a chain. -/
theorem Chain.parts_erase : ∀ c : Chain α, c.erase.parts = c.parts.map Part.erase
  | .nil => rfl
  | .cons _ _ slots rest => by
    rw [Chain.erase, Chain.parts, Chain.parts, slots.parts_erase, rest.parts_erase, List.map_cons,
      List.map_append, Part.erase]

/-- Forgetting tags commutes with taking the parts of slots. -/
theorem Slots.parts_erase : ∀ s : Slots α, s.erase.parts = s.parts.map Part.erase
  | .nil => rfl
  | .cons _ _ value shadow rest => by
    rw [Slots.erase, Slots.parts, Slots.parts, value.parts_erase, shadow.parts_erase,
      rest.parts_erase, List.map_append, List.map_append]

end

mutual

/-- The tags of a chain are those of its parts. -/
theorem Chain.tags_eq_parts : ∀ c : Chain α, c.tags = c.parts.map Part.tag
  | .nil => rfl
  | .cons _ _ slots rest => by
    rw [Chain.tags, Chain.parts, slots.tags_eq_parts, rest.tags_eq_parts, List.map_cons,
      List.map_append]

/-- The tags of slots are those of their parts. -/
theorem Slots.tags_eq_parts : ∀ s : Slots α, s.tags = s.parts.map Part.tag
  | .nil => rfl
  | .cons _ _ value shadow rest => by
    rw [Slots.tags, Slots.parts, value.tags_eq_parts, shadow.tags_eq_parts, rest.tags_eq_parts,
      List.map_append, List.map_append]

end

/-- The tag of a part is a tag of the chain. -/
theorem Chain.tag_mem (c : Chain α) {p : Part α} (h : p ∈ c.parts) : p.tag ∈ c.tags :=
  c.tags_eq_parts ▸ List.mem_map_of_mem h

namespace Slots

/-- Forgetting tags commutes with listing the entries of slots. -/
theorem entries_erase : ∀ s : Slots α,
    s.erase.entries = s.entries.map fun entry ↦ (entry.1, entry.2.erase)
  | .nil => rfl
  | .cons _ _ _ _ rest => by rw [erase, entries, entries, entries_erase rest]; rfl

/-- The entries of slots put together are those of both. -/
theorem entries_append : ∀ s t : Slots α, (s.append t).entries = s.entries ++ t.entries
  | .nil, _ => rfl
  | .cons _ _ _ _ rest, t => by rw [append, entries, entries, entries_append rest, List.cons_append]

/-- The blocks in a slot are among those in all slots. -/
theorem parts_subset_of_mem_entries {input : String} {content : Content α} :
    ∀ {s : Slots α}, (input, content) ∈ s.entries →
      content.value.parts ⊆ s.parts ∧ content.shadow.parts ⊆ s.parts
  | .cons name constant value shadow rest, h => by
    rcases List.mem_cons.1 h with heq | h
    · obtain ⟨-, rfl⟩ := Prod.mk.inj heq
      exact ⟨fun p hp ↦ List.mem_append_right _ (List.mem_append_left _ hp),
        fun p hp ↦ List.mem_append_left _ hp⟩
    · have ⟨hvalue, hshadow⟩ := parts_subset_of_mem_entries h
      have hrest : rest.parts ⊆ (Slots.cons name constant value shadow rest).parts :=
        fun p hp ↦ List.mem_append_right _ (List.mem_append_right _ hp)
      exact ⟨fun p hp ↦ hrest (hvalue hp), fun p hp ↦ hrest (hshadow hp)⟩

end Slots

mutual

/-- What a block of a chain holds is in the chain. -/
theorem Chain.parts_subset_of_mem : ∀ {c : Chain α} {p : Part α}, p ∈ c.parts →
    p.slots.parts ⊆ c.parts
  | .cons tag node slots rest, p, hp => by
    refine fun q hq ↦ List.mem_cons_of_mem _ (List.mem_append.2 ?_)
    rcases List.mem_cons.1 hp with rfl | hp
    · exact .inl hq
    · exact (List.mem_append.1 hp).imp (fun hp ↦ Slots.parts_subset_of_mem hp hq)
        fun hp ↦ Chain.parts_subset_of_mem hp hq

/-- The parts inside a part are parts of the whole. -/
theorem Slots.parts_subset_of_mem : ∀ {s : Slots α} {p : Part α}, p ∈ s.parts →
    p.slots.parts ⊆ s.parts
  | .cons _ _ value shadow rest, p, hp => by
    refine fun q hq ↦ List.mem_append.2 ((List.mem_append.1 hp).imp
      (fun hp ↦ Chain.parts_subset_of_mem hp hq) fun hp ↦ List.mem_append.2 ?_)
    exact (List.mem_append.1 hp).imp (fun hp ↦ Chain.parts_subset_of_mem hp hq)
      fun hp ↦ Slots.parts_subset_of_mem hp hq

end

/-! ### Parts of held trees -/

/-- The block is that of the part: it says what the part says and has its slots. -/
structure Part.IsBlock (g : Graph) (p : Part BlockId) (b : Block) : Prop where
  found : g.blocks.find? p.tag = some b
  said : ∃ s, b.Says g.symbols p.node s
  slots : p.slots.Held g p.tag b.inputs

/-- The graph has a block for the part. -/
def Part.Held (g : Graph) (p : Part BlockId) : Prop :=
  ∃ b, p.IsBlock g b

mutual

/-- Each part of a chain that a graph holds is held by it. -/
theorem Chain.Held.part {g : Graph} : ∀ {c : Chain BlockId} {s : Setting}, c.Held g s →
    ∀ p ∈ c.parts, p.Held g
  | .cons _ _ slots rest, _, ⟨b, hb, hsaid, _, _, hslots, hrest⟩, p, hp => by
    rcases List.mem_cons.1 hp with rfl | hp
    · exact ⟨b, hb, ⟨_, hsaid⟩, hslots⟩
    · rcases List.mem_append.1 hp with hp | hp
      · exact hslots.part p hp
      · exact hrest.part p hp

/-- Each part of slots that a graph holds is held by it. -/
theorem Slots.Held.part {g : Graph} : ∀ {s : Slots BlockId} {owner : BlockId} {inputs : Dict Slot},
    s.Held g owner inputs → ∀ p ∈ s.parts, p.Held g
  | .cons _ _ value shadow rest, _, _, ⟨_, hvalue, hshadow, hrest⟩, p, hp => by
    rcases List.mem_append.1 hp with hp | hp
    · exact hshadow.part p hp
    · rcases List.mem_append.1 hp with hp | hp
      · exact hvalue.part p hp
      · exact hrest.part p hp

end

/-- Held slots are inputs that show what the slots say. -/
theorem Slots.Held.entry {g : Graph} {owner : BlockId} {inputs : Dict Slot} {input : String}
    {content : Content BlockId} : ∀ {s : Slots BlockId}, s.Held g owner inputs →
    (input, content) ∈ s.entries → ∃ slot, inputs.find? input = some slot ∧
      slot.Shows content.constant content.value content.shadow
  | .cons .., ⟨hslot, _, _, hrest⟩, h => by
    rcases List.mem_cons.1 h with heq | h
    · obtain ⟨rfl, rfl⟩ := Prod.mk.inj heq
      exact hslot
    · exact hrest.entry h

/-! ### Expressions in what is read -/

namespace Reading

variable {read : Reader} {inner : String}

/-- The trees of some texts are parts of a tree. -/
def Includes (read : Reader) (texts : List String) (parts : List (Part Unit)) : Prop :=
  ∀ inner ∈ texts, ∃ t, read inner = .ok t ∧ t.parts ⊆ parts

/-- What is included in some parts is included in more. -/
theorem Includes.mono {texts : List String} {parts more : List (Part Unit)}
    (h : Includes read texts parts) (hsub : parts ⊆ more) : Includes read texts more := by
  intro inner hinner
  obtain ⟨t, ht, hparts⟩ := h inner hinner
  exact ⟨t, ht, fun p hp ↦ hsub (hparts hp)⟩

/-- The operand of a comparison includes the expression in its text. -/
theorem operand_includes {text : String} {content : Content Unit}
    (h : operand read text = .ok content) :
    Includes read (([text].filter isOperandExpression).map Call.dropMarker)
      content.value.parts := by
  intro inner hinner
  obtain ⟨found, hmem, rfl⟩ := List.mem_map.1 hinner
  obtain ⟨hfound, hx⟩ := List.mem_filter.1 hmem
  obtain rfl := List.mem_singleton.1 hfound
  rw [operand, if_pos hx] at h
  obtain ⟨t, ht, hcontent⟩ := bind_eq_ok.1 h
  obtain rfl := Except.ok.inj hcontent
  exact ⟨t, ht, List.Subset.refl _⟩

/-- A comparison includes the expressions on both of its sides. -/
theorem comparison_includes {opcode left right : String} {tree : Tree}
    (h : comparison read opcode left right = .ok tree) :
    Includes read (([left, right].filter isOperandExpression).map Call.dropMarker) tree.parts := by
  obtain ⟨first, hfirst, h⟩ := bind_eq_ok.1 h
  obtain ⟨second, hsecond, h⟩ := bind_eq_ok.1 h
  obtain rfl := Except.ok.inj h
  intro inner hinner
  rw [show [left, right] = [left] ++ [right] from rfl, List.filter_append, List.map_append,
    List.mem_append] at hinner
  have hentries : ∀ input content, (input, content) ∈ [("OPERAND1", first), ("OPERAND2", second)] →
      content.value.parts ⊆ (block { opcode } ((first.slot "OPERAND1").append
        (second.slot "OPERAND2"))).parts := by
    intro input content hmem
    have hslots := (Slots.parts_subset_of_mem_entries (s := (first.slot "OPERAND1").append
      (second.slot "OPERAND2")) hmem).1
    exact fun p hp ↦ List.mem_cons_of_mem _ (List.mem_append_left _ (hslots hp))
  rcases hinner with hinner | hinner
  · exact (operand_includes hfirst).mono (hentries "OPERAND1" first (by simp)) inner hinner
  · exact (operand_includes hsecond).mono (hentries "OPERAND2" second (by simp)) inner hinner

/-- A comparison in infix form includes the expressions on both of its sides. -/
theorem comparisonOf_includes {c : Comparison} {tree : Tree}
    (h : comparisonOf read c = .ok tree) :
    Includes read (([c.left, c.right].filter isOperandExpression).map Call.dropMarker)
      tree.parts := by
  have hnegated : ∀ opcode, negation <$> comparison read opcode c.left c.right = .ok tree →
      Includes read (([c.left, c.right].filter isOperandExpression).map Call.dropMarker)
        tree.parts := by
    intro opcode h
    obtain ⟨t, ht, rfl⟩ := map_eq_ok.1 h
    refine (comparison_includes ht).mono fun p hp ↦ List.mem_cons_of_mem _ ?_
    simpa [Content.slot, Slots.parts, Chain.parts] using hp
  unfold comparisonOf at h
  cases hrelation : c.relation <;> rw [hrelation] at h
  case greater | less | equal | sameAs => exact comparison_includes h
  case atLeast | atMost | notEqual => exact hnegated _ h

/-- A condition includes the expressions it is made of. -/
theorem condition_includes {raw : String} {tree : Tree} (h : condition read raw = .ok tree) :
    Includes read (conditionParts raw) tree.parts := by
  unfold condition at h
  unfold conditionParts
  generalize Text.trim raw = value at h ⊢
  dsimp only at h ⊢
  cases hx : Text.startsWith value "@" || Call.isShaped value with
  | true =>
    rw [hx, if_pos rfl] at h
    intro inner hinner
    obtain rfl := List.mem_singleton.1 hinner
    exact ⟨tree, h, List.Subset.refl _⟩
  | false =>
    rw [hx, if_neg Bool.false_ne_true] at h
    rw [if_neg Bool.false_ne_true]
    cases hsplit : Comparison.split? value with
    | none => exact fun inner hinner ↦ absurd hinner List.not_mem_nil
    | some c =>
      rw [hsplit] at h
      exact comparisonOf_includes h

/-- The content of an input includes the expression in its text. -/
theorem input_includes {command : String} {args : Arguments} {spec : InputSpec}
    {content : Content Unit} (h : input read command args spec = .ok content) :
    Includes read (spec.embedded (inputText spec args)) content.value.parts := by
  have hcovered : ∀ {f : Tree → Content Unit} {raw : String} {bare : Content Unit},
      (∀ t, (f t).value = t) →
      (if spec.isExpression raw then (read (Call.dropMarker raw) >>= fun t ↦ pure (f t))
        else pure bare) = .ok content →
      Includes read (if spec.isExpression raw then [Call.dropMarker raw] else [])
        content.value.parts := by
    intro f raw bare hf h inner hinner
    split at h
    · next hx =>
      rw [if_pos hx] at hinner
      obtain rfl := List.mem_singleton.1 hinner
      obtain ⟨t, ht, hcontent⟩ := bind_eq_ok.1 h
      obtain rfl := Except.ok.inj hcontent
      exact ⟨t, ht, by rw [hf]; exact List.Subset.refl _⟩
    · next hx =>
      rw [if_neg hx] at hinner
      cases hinner
  unfold input at h
  unfold InputSpec.embedded
  cases hkind : spec.kind <;> rw [hkind] at h <;>
    simp only [reduceCtorEq, if_true, if_false]
  case boolean =>
    obtain ⟨t, ht, rfl⟩ := map_eq_ok.1 h
    exact condition_includes ht
  case menu => exact hcovered (fun _ ↦ rfl) h
  case text | number | integer | angle | color => exact hcovered (fun _ ↦ rfl) h

/-- Each input is read for a slot. -/
theorem mem_entries_of_inputs {command : String} {args : Arguments} {specs : List InputSpec}
    {slots : Slots Unit} (h : inputs read command args specs = .ok slots) {spec : InputSpec}
    (hspec : spec ∈ specs) : ∃ content, input read command args spec = .ok content ∧
      (spec.name, content) ∈ slots.entries := by
  induction specs generalizing slots with
  | nil => cases hspec
  | cons head specs ih =>
    obtain ⟨content, hcontent, h⟩ := bind_eq_ok.1 h
    obtain ⟨rest, hrest, h⟩ := bind_eq_ok.1 h
    obtain rfl := Except.ok.inj h
    rw [Slots.entries_append]
    rcases List.mem_cons.1 hspec with rfl | hspec
    · exact ⟨content, hcontent, List.mem_cons_self⟩
    · obtain ⟨found, hfound, hmem⟩ := ih hrest hspec
      exact ⟨found, hfound, List.mem_append_right _ hmem⟩

/-- The block of a command includes those of the expressions in its inputs. -/
theorem commandBlock_includes {c : Command} {args : Arguments} {tree : Tree}
    (h : commandBlock read c args = .ok tree) : Includes read (c.embedded args) tree.parts := by
  obtain ⟨slots, hslots, h⟩ := bind_eq_ok.1 h
  obtain rfl := Except.ok.inj h
  intro inner hinner
  obtain ⟨spec, hspec, hinner⟩ := List.mem_flatMap.1 hinner
  obtain ⟨content, hcontent, hmem⟩ := mem_entries_of_inputs hslots hspec
  refine (input_includes hcontent).mono (fun p hp ↦ ?_) inner hinner
  exact List.mem_cons_of_mem _ (List.mem_append_left _
    ((Slots.parts_subset_of_mem_entries hmem).1 hp))

end Reading

end BlockScript

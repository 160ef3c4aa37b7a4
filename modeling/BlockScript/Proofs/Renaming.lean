import Mathlib.Combinatorics.Enumerative.DoubleCounting
import Mathlib.Data.List.Forall2
import Mathlib.Logic.Relator
import BlockScript.Script.Draft
import BlockScript.Proofs.Dictionary

/-!
# Targets that differ in their identifiers

The blocks, variables and lists of a target are numbered from wherever the counter stands when the
target is made. This file says what it means that two targets are the same apart from these numbers
(`Target.Renamed`): there is a one-to-one relation between identifiers that carries one block map,
and the declarations, to the other. Symbols of the stage and broadcasts keep their identifiers, and
a field says which of these it is bound to (`Field.Renamed`).

The cursors of a draft are renamed in the same way (`Frame.Renamed`). Under the renaming that
changes nothing, things are renamed to themselves alone (`Renaming.same`).
-/

namespace BlockScript

/-! ### Dictionaries with other keys -/

/-- The dictionaries hold related values under related keys, and nothing else. -/
structure Dict.Matches {α β : Type} (twin : String → String → Prop) (rel : α → β → Prop)
    (d : Dict α) (e : Dict β) : Prop where
  /-- What the first one holds, the second one holds. -/
  forth : ∀ a v, d.find? a = some v → ∃ b w, twin a b ∧ e.find? b = some w ∧ rel v w
  /-- What the second one holds, the first one holds. -/
  back : ∀ b w, e.find? b = some w → ∃ a v, twin a b ∧ d.find? a = some v ∧ rel v w

namespace Dict

variable {α β : Type} {twin : String → String → Prop} {rel : α → β → Prop} {d : Dict α}
  {e : Dict β} {a b : String}

/-- Empty dictionaries match. -/
theorem matches_empty : Matches twin rel (∅ : Dict α) (∅ : Dict β) where
  forth a v h := by simp at h
  back b w h := by simp at h

/-- Dictionaries that match still do after related values were put under related keys. -/
theorem Matches.insert (h : Matches twin rel d e) (hunique : Relator.BiUnique twin)
    (hkey : twin a b) {v : α} {w : β} (hvalue : rel v w) :
    Matches twin rel (d.insert a v) (e.insert b w) where
  forth a' v' hfind := by
    rw [find?_insert] at hfind
    split at hfind
    · next heq =>
      obtain rfl := Option.some.inj hfind
      exact ⟨b, w, heq ▸ hkey, find?_insert_self _ _ _, hvalue⟩
    · next hne =>
      obtain ⟨b', w', hkey', hfind', hrel⟩ := h.forth a' v' hfind
      have hother : b' ≠ b := fun heq ↦ hne (hunique.1 (heq ▸ hkey') hkey)
      exact ⟨b', w', hkey', (find?_insert_of_ne e w hother).trans hfind', hrel⟩
  back b' w' hfind := by
    rw [find?_insert] at hfind
    split at hfind
    · next heq =>
      obtain rfl := Option.some.inj hfind
      exact ⟨a, v, heq ▸ hkey, find?_insert_self _ _ _, hvalue⟩
    · next hne =>
      obtain ⟨a', v', hkey', hfind', hrel⟩ := h.back b' w' hfind
      have hother : a' ≠ a := fun heq ↦ hne (hunique.2 (heq ▸ hkey') hkey)
      exact ⟨a', v', hkey', (find?_insert_of_ne d v hother).trans hfind', hrel⟩

/-- Dictionaries that match still do after related values were changed in the same way. -/
theorem Matches.modify (h : Matches twin rel d e) (hunique : Relator.BiUnique twin)
    (hkey : twin a b) {f : α → α} {g : β → β} (hvalue : ∀ v w, rel v w → rel (f v) (g w)) :
    Matches twin rel (d.modify a f) (e.modify b g) where
  forth a' v' hfind := by
    rw [find?_modify] at hfind
    split at hfind
    · next heq =>
      obtain ⟨v, hv, rfl⟩ := Option.map_eq_some_iff.1 hfind
      obtain ⟨b', w, hkey', hw, hrel⟩ := h.forth a' v hv
      -- the key of one dictionary decides about that of the other
      obtain rfl := hunique.2 (heq ▸ hkey') hkey
      exact ⟨b', g w, hkey', by rw [find?_modify, if_pos rfl, hw]; rfl, hvalue v w hrel⟩
    · next hne =>
      obtain ⟨b', w, hkey', hw, hrel⟩ := h.forth a' v' hfind
      have hother : b' ≠ b := fun heq ↦ hne (hunique.1 (heq ▸ hkey') hkey)
      exact ⟨b', w, hkey', by rw [find?_modify, if_neg hother, hw], hrel⟩
  back b' w' hfind := by
    rw [find?_modify] at hfind
    split at hfind
    · next heq =>
      obtain ⟨w, hw, rfl⟩ := Option.map_eq_some_iff.1 hfind
      obtain ⟨a', v, hkey', hv, hrel⟩ := h.back b' w hw
      obtain rfl := hunique.1 (heq ▸ hkey') hkey
      exact ⟨a', f v, hkey', by rw [find?_modify, if_pos rfl, hv]; rfl, hvalue v w hrel⟩
    · next hne =>
      obtain ⟨a', v, hkey', hv, hrel⟩ := h.back b' w' hfind
      have hother : a' ≠ a := fun heq ↦ hne (hunique.2 (heq ▸ hkey') hkey)
      exact ⟨a', v, hkey', by rw [find?_modify, if_neg hother, hv], hrel⟩

/-- A dictionary is as large as the set of its keys. -/
theorem size_eq_card (d : Dict α) : d.size = d.keys.toFinset.card := by
  rw [List.toFinset_card_of_nodup d.keys_nodup, keys, List.length_map, size]

/-- Dictionaries that match are of the same size. -/
theorem Matches.size_eq (h : Matches twin rel d e) (hunique : Relator.BiUnique twin) :
    d.size = e.size := by
  rw [size_eq_card, size_eq_card]
  have hforth : ∀ a ∈ d.keys.toFinset, ∃ b, b ∈ e.keys.toFinset ∧ twin a b := by
    intro a ha
    obtain ⟨v, hv⟩ := mem_keys_iff.1 (List.mem_toFinset.1 ha)
    obtain ⟨b, w, hkey, hw, -⟩ := h.forth a v hv
    exact ⟨b, List.mem_toFinset.2 (mem_keys_iff.2 ⟨w, hw⟩), hkey⟩
  have hback : ∀ b ∈ e.keys.toFinset, ∃ a, a ∈ d.keys.toFinset ∧ twin a b := by
    intro b hb
    obtain ⟨w, hw⟩ := mem_keys_iff.1 (List.mem_toFinset.1 hb)
    obtain ⟨a, v, hkey, hv, -⟩ := h.back b w hw
    exact ⟨a, List.mem_toFinset.2 (mem_keys_iff.2 ⟨v, hv⟩), hkey⟩
  refine le_antisymm
    (Finset.card_le_card_of_forall_subsingleton twin hforth fun b _ a ha a' ha' ↦ ?_)
    (Finset.card_le_card_of_forall_subsingleton (flip twin) hback fun a _ b hb b' hb' ↦ ?_)
  · exact hunique.1 ha.2 ha'.2
  · exact hunique.2 hb.2 hb'.2

end Dict

/-- Two options that are related are both empty or hold related values. -/
theorem optionRel_cases {α β : Type} {rel : α → β → Prop} {x : Option α} {y : Option β}
    (h : Option.Rel rel x y) :
    (x = none ∧ y = none) ∨ ∃ a b, x = some a ∧ y = some b ∧ rel a b := by
  cases h with
  | none => exact .inl ⟨rfl, rfl⟩
  | some h => exact .inr ⟨_, _, rfl, rfl, h⟩

/-- Equality pairs each name with itself only. -/
theorem biUnique_eq : Relator.BiUnique (Eq : String → String → Prop) :=
  ⟨fun _ _ _ h h' ↦ h.trans h'.symm, fun _ _ _ h h' ↦ h.symm.trans h'⟩

/-! ### Renamed targets -/

/-- What two targets call the same things. -/
structure Renaming where
  /-- An identifier of one target and the identifier of the same thing in the other. -/
  twin : String → String → Prop
  /-- The symbols that both targets have from the stage. -/
  shared : Symbol → Prop

variable {r : Renaming}

/-- The same fallback under another identifier. -/
inductive Fallback.Renamed (r : Renaming) : Fallback → Fallback → Prop where
  | literal (value : Literal) : Renamed r (.literal value) (.literal value)
  | shadow {a b : BlockId} (h : r.twin a b) : Renamed r (.shadow a) (.shadow b)

/-- The same content of an input under other identifiers. -/
inductive Slot.Renamed (r : Renaming) : Slot → Slot → Prop where
  | literal (value : Literal) : Renamed r (.literal value) (.literal value)
  | shadow {a b : BlockId} (h : r.twin a b) : Renamed r (.shadow a) (.shadow b)
  | block {a b : BlockId} (h : r.twin a b) : Renamed r (.block a) (.block b)
  | covered {a b : BlockId} {f g : Fallback} (h : r.twin a b) (hfallback : f.Renamed r g) :
    Renamed r (.covered a f) (.covered b g)

/-- The same field under another identifier. -/
inductive Field.Renamed (r : Renaming) : Field → Field → Prop where
  /-- The field is bound to nothing. -/
  | plain (text : String) : Renamed r ⟨text, none⟩ ⟨text, none⟩
  /-- The field names a variable or list of its own target. -/
  | own {a b : String} (text : String) (h : r.twin a b) :
    Renamed r ⟨text, some a⟩ ⟨text, some b⟩
  /-- The field names a variable or list of the stage. -/
  | shared {id text : String} (h : r.shared ⟨id, text⟩) :
    Renamed r ⟨text, some id⟩ ⟨text, some id⟩
  /-- The field names a broadcast. -/
  | broadcast (text : String) :
    Renamed r ⟨text, some (broadcastId text)⟩ ⟨text, some (broadcastId text)⟩
  /-- The field names a procedure. -/
  | procedure (text : String) : Renamed r ⟨text, some text⟩ ⟨text, some text⟩

/-- The same block under other identifiers. -/
structure Block.Renamed (r : Renaming) (b c : Block) : Prop where
  opcode : b.opcode = c.opcode
  next : Option.Rel r.twin b.next c.next
  parent : Option.Rel r.twin b.parent c.parent
  inputs : b.inputs.Matches Eq (Slot.Renamed r) c.inputs
  fields : b.fields.Matches Eq (Field.Renamed r) c.fields
  shadow : b.shadow = c.shadow
  place : b.place = c.place
  procedure : b.procedure = c.procedure

/-- The same target under other identifiers. -/
structure Target.Renamed (r : Renaming) (t u : Target) : Prop where
  kind : t.kind = u.kind
  name : t.name = u.name
  blocks : t.blocks.Matches r.twin (Block.Renamed r) u.blocks
  vars : List.Forall₂ (fun v w ↦ r.twin v.id w.id ∧ v.name = w.name ∧ v.value = w.value)
    t.vars u.vars
  lists : List.Forall₂ (fun v w ↦ r.twin v.id w.id ∧ v.name = w.name) t.lists u.lists
  broadcasts : t.broadcasts = u.broadcasts
  costume : t.costume = u.costume

/-! ### Cursors -/

/-- The same sub-chain under other identifiers. -/
structure Branch.Renamed (r : Renaming) (a b : Branch) : Prop where
  input : a.input = b.input
  last : Option.Rel r.twin a.last b.last

/-- The same sub-chains under other identifiers. -/
inductive Branches.Renamed (r : Renaming) : Branches → Branches → Prop where
  | single {a b : Branch} (h : a.Renamed r b) : Renamed r (.single a) (.single b)
  | ifThen {a b : Branch} (h : a.Renamed r b) : Renamed r (.ifThen a) (.ifThen b)
  | ifElse {a b c d : Branch} (h : a.Renamed r b) (h' : c.Renamed r d) (inElse : Bool) :
    Renamed r (.ifElse a c inElse) (.ifElse b d inElse)

/-- The same open block under other identifiers. -/
structure Frame.Renamed (r : Renaming) (f g : Frame) : Prop where
  block : r.twin f.block g.block
  command : f.command = g.command
  line : f.line = g.line
  branches : f.branches.Renamed r g.branches

/-- The same place for a new block. -/
inductive Role.Renamed (r : Renaming) : Role → Role → Prop where
  | entry : Renamed r .entry .entry
  | statement : Renamed r .statement .statement
  | value {a b : BlockId} (h : r.twin a b) : Renamed r (.value a) (.value b)
  | shadow {a b : BlockId} (h : r.twin a b) : Renamed r (.shadow a) (.shadow b)

/-- The branches of a new block hold no identifiers yet. -/
theorem Branches.renamed_ofCommand (c : Command) :
    (Branches.ofCommand c).Renamed r (Branches.ofCommand c) := by
  have hbranch : ∀ input, Branch.Renamed r ⟨input, none⟩ ⟨input, none⟩ := fun _ ↦ ⟨rfl, .none⟩
  unfold Branches.ofCommand
  split
  · split
    · exact .ifThen (hbranch _)
    · split
      · exact .ifElse (hbranch _) (hbranch _) false
      · exact .single (hbranch _)
  · exact .single (hbranch _)

/-- The last block of a branch is renamed with it. -/
theorem Branch.Renamed.extend {a b : Branch} (h : a.Renamed r b) {x y : BlockId}
    (hid : r.twin x y) : Branch.Renamed r { a with last := some x } { b with last := some y } :=
  ⟨h.input, .some hid⟩

namespace Branches.Renamed

variable {a b : Branches}

/-- The active branches of renamed branches are renamed. -/
theorem active (h : a.Renamed r b) : a.active.Renamed r b.active := by
  cases h with
  | single h => exact h
  | ifThen h => exact h
  | ifElse h h' inElse =>
    cases inElse with
    | false => exact h
    | true => exact h'

/-- A block added to the active branch is renamed with it. -/
theorem extend (h : a.Renamed r b) {x y : BlockId} (hid : r.twin x y) :
    (a.extend x).Renamed r (b.extend y) := by
  cases h with
  | single h => exact .single (h.extend hid)
  | ifThen h => exact .ifThen (h.extend hid)
  | ifElse h h' inElse =>
    cases inElse with
    | false => exact .ifElse (h.extend hid) h' false
    | true => exact .ifElse h (h'.extend hid) true

/-- An else is taken by both or by none, and for the same reason. -/
theorem enterElse (h : a.Renamed r b) :
    (∃ fault, a.enterElse = .error fault ∧ b.enterElse = .error fault) ∨
      ∃ a' b', a.enterElse = .ok a' ∧ b.enterElse = .ok b' ∧ a'.Renamed r b' := by
  cases h with
  | single h => exact .inl ⟨_, rfl, rfl⟩
  | ifThen h => exact .inr ⟨_, _, rfl, rfl, .ifElse h ⟨rfl, .none⟩ true⟩
  | ifElse h h' inElse =>
    cases inElse with
    | false => exact .inr ⟨_, _, rfl, rfl, .ifElse h h' true⟩
    | true => exact .inl ⟨_, rfl, rfl⟩

end Branches.Renamed

/-! ### No renaming -/

/-- Everything has the same name. -/
def Renaming.same : Renaming where
  twin := Eq
  shared _ := True

/-- A role under no renaming is the same role. -/
theorem Role.Renamed.eq {role role' : Role} (h : role.Renamed .same role') : role = role' := by
  cases h with
  | entry => rfl
  | statement => rfl
  | value h => rw [h]
  | shadow h => rw [h]

/-- A fallback under no renaming is the same fallback. -/
theorem Fallback.Renamed.eq {f g : Fallback} (h : f.Renamed .same g) : f = g := by
  cases h with
  | literal => rfl
  | shadow h => rw [h]

/-- A slot under no renaming is the same slot. -/
theorem Slot.Renamed.eq {slot slot' : Slot} (h : slot.Renamed .same slot') : slot = slot' := by
  cases h with
  | literal => rfl
  | shadow h => rw [h]
  | block h => rw [h]
  | covered h hfallback => rw [h, hfallback.eq]

/-- Options related by equality are equal. -/
theorem optionRel_eq {α : Type} {x y : Option α} (h : Option.Rel Eq x y) : x = y := by
  cases h with
  | none => rfl
  | some h => rw [h]

/-- An option is related to itself by equality. -/
theorem optionRel_refl {α : Type} (x : Option α) : Option.Rel Eq x x := by
  cases x with
  | none => exact .none
  | some a => exact .some rfl

/-- A branch under no renaming is the same branch. -/
theorem Branch.renamed_same {a b : Branch} : a.Renamed .same b ↔ a = b := by
  refine ⟨fun h ↦ ?_, ?_⟩
  · obtain ⟨hinput, hlast⟩ := h
    exact Branch.mk.injEq _ _ _ _ ▸ ⟨hinput, optionRel_eq hlast⟩
  · rintro rfl
    exact ⟨rfl, optionRel_refl _⟩

/-- Branches under no renaming are the same branches. -/
theorem Branches.renamed_same {a b : Branches} : a.Renamed .same b ↔ a = b := by
  refine ⟨fun h ↦ ?_, ?_⟩
  · cases h with
    | single h => rw [Branch.renamed_same.1 h]
    | ifThen h => rw [Branch.renamed_same.1 h]
    | ifElse h h' => rw [Branch.renamed_same.1 h, Branch.renamed_same.1 h']
  · rintro rfl
    have hbranch : ∀ branch : Branch, branch.Renamed .same branch :=
      fun _ ↦ Branch.renamed_same.2 rfl
    cases a with
    | single body => exact .single (hbranch body)
    | ifThen body => exact .ifThen (hbranch body)
    | ifElse body otherwise inElse => exact .ifElse (hbranch body) (hbranch otherwise) inElse

/-- A frame under no renaming is the same frame. -/
theorem Frame.renamed_same {f g : Frame} : f.Renamed .same g ↔ f = g := by
  refine ⟨fun h ↦ ?_, ?_⟩
  · obtain ⟨hblock, hcommand, hline, hbranches⟩ := h
    cases f
    cases g
    simp only [Frame.mk.injEq]
    exact ⟨hblock, hcommand, hline, Branches.renamed_same.1 hbranches⟩
  · rintro rfl
    exact ⟨rfl, rfl, rfl, Branches.renamed_same.2 rfl⟩

/-- Without a renaming, lists of open blocks go together if they are the same. -/
theorem forall₂_renamed_same {fs gs : List Frame} :
    List.Forall₂ (Frame.Renamed .same) fs gs ↔ fs = gs := by
  have hrel : Frame.Renamed .same = Eq := by
    funext f g
    exact propext Frame.renamed_same
  rw [hrel, List.forall₂_eq_eq_eq]

end BlockScript

import BlockScript.Proofs.Parse
import BlockScript.Proofs.Spelling

/-!
# Stacks of statements

What is left of a script when everything but its statements is forgotten: their operation codes, how
they follow each other, and the sub-chains of each (`Stack`). A target holds a stack from one of its
blocks on if its blocks do (`Stack.Held`). Trees that are held by a graph are stacks too, when their
arguments are left out (`Chain.Held.stack`).

Stacks without a head of their own do not make scripts when they are written one below the other:
such a stack goes on with the script before it, or with a new one that runs when the program starts
(`Stack.join`). Each of them is a script exactly if all but the first have a head
(`Stack.scripts_eq_map_alone`).
-/

namespace BlockScript

/-! ### Stacks -/

/-- Statements one after the other, each with the statements in its two branches. -/
inductive Stack (α : Type) where
  | nil
  | cons (tag : α) (opcode : String) (first second rest : Stack α)
deriving DecidableEq, Repr

namespace Stack

variable {α : Type}

/-- The tags of a stack, each statement before what is nested in it. -/
def tags : Stack α → List α
  | .nil => []
  | .cons tag _ first second rest => tag :: (first.tags ++ (second.tags ++ rest.tags))

/-- A stack without its tags. -/
def erase : Stack α → Stack Unit
  | .nil => .nil
  | .cons _ opcode first second rest => .cons () opcode first.erase second.erase rest.erase

/-- A stack below another one. -/
def append : Stack α → Stack α → Stack α
  | .nil, s => s
  | .cons tag opcode first second rest, s => .cons tag opcode first second (rest.append s)

/-- No blocks at the end change nothing. -/
@[simp]
theorem append_nil : ∀ s : Stack α, s.append .nil = s
  | .nil => rfl
  | .cons tag opcode first second rest =>
    congrArg (Stack.cons tag opcode first second) (append_nil rest)

end Stack

/-! ### Branches -/

/-- The names of the sub-chains of a block. -/
def Catalog.branchNames (catalog : Catalog) (opcode : String) : List String :=
  ((catalog.commandFor? opcode .nesting).map Command.branchNames).getD []

/-- The first block of a sub-chain. -/
def Block.branch (catalog : Catalog) (b : Block) (i : Nat) : Option BlockId :=
  (catalog.branchNames b.opcode)[i]?.bind fun name ↦ (b.inputs.find? name).bind Slot.connected?

/-- In a regular catalog the branches of an operation code are those of any command that has it. -/
theorem Catalog.IsRegular.branchNames_eq {catalog : Catalog} (hcat : catalog.IsRegular)
    {c : Command} (hc : c ∈ catalog.commands.values) {opcode : String}
    (ho : c.opcode? = some opcode) :
    catalog.branchNames opcode = c.branchNames := by
  rw [Catalog.branchNames, hcat.commandFor? hc ho]
  rfl

/-- The target holds the stack from a block on. -/
def Stack.Held (catalog : Catalog) (t : Target) : Stack BlockId → Option BlockId → Prop
  | .nil, start => start = none
  | .cons id opcode first second rest, start => start = some id ∧
      ∃ b, t.blocks.find? id = some b ∧ b.opcode = opcode ∧
        first.Held catalog t (b.branch catalog 0) ∧
        second.Held catalog t (b.branch catalog 1) ∧ rest.Held catalog t b.next

/-- Whether a target holds a stack can be computed. -/
instance Stack.decidableHeld (catalog : Catalog) (t : Target) : ∀ (s : Stack BlockId)
    (start : Option BlockId), Decidable (s.Held catalog t start)
  | .nil, start => inferInstanceAs (Decidable (start = none))
  | .cons id opcode first second rest, start =>
    match hfind : t.blocks.find? id with
    | none => .isFalse fun ⟨_, b, hb, _⟩ ↦ by cases hfind.symm.trans hb
    | some b =>
      have := Stack.decidableHeld catalog t first (b.branch catalog 0)
      have := Stack.decidableHeld catalog t second (b.branch catalog 1)
      have := Stack.decidableHeld catalog t rest b.next
      decidable_of_iff (start = some id ∧ b.opcode = opcode ∧
        first.Held catalog t (b.branch catalog 0) ∧
        second.Held catalog t (b.branch catalog 1) ∧ rest.Held catalog t b.next)
        ⟨fun ⟨hstart, h⟩ ↦ ⟨hstart, b, hfind, h⟩, fun ⟨hstart, b', hb', h⟩ ↦
          ⟨hstart, Option.some.inj (hb'.symm.trans hfind) ▸ h⟩⟩

/-- The blocks of a stack that a target holds are blocks of the target. -/
theorem Stack.Held.mem_keys {catalog : Catalog} {t : Target} : ∀ {s : Stack BlockId}
    {start : Option BlockId}, s.Held catalog t start → ∀ id ∈ s.tags, id ∈ t.blocks.keys
  | .cons id opcode first second rest, _, ⟨_, b, hb, _, hfirst, hsecond, hrest⟩, other, hother => by
    rcases List.mem_cons.1 hother with rfl | hother
    · exact Dict.mem_keys_iff.2 ⟨b, hb⟩
    rcases List.mem_append.1 hother with hother | hother
    · exact hfirst.mem_keys other hother
    rcases List.mem_append.1 hother with hother | hother
    · exact hsecond.mem_keys other hother
    · exact hrest.mem_keys other hother

/-! ### Trees -/

section

variable {α : Type} (catalog : Catalog)

mutual

/-- The statements of a tree. -/
def Chain.stack : Chain α → Stack α
  | .nil => .nil
  | .cons tag node slots rest => .cons tag node.opcode
      (slots.stackAt (catalog.branchNames node.opcode)[0]?)
      (slots.stackAt (catalog.branchNames node.opcode)[1]?) rest.stack

/-- The statements in the slot with a name. -/
def Slots.stackAt : Slots α → Option String → Stack α
  | .nil, _ => .nil
  | .cons input _ value _ rest, name => if some input = name then value.stack else rest.stackAt name

end

end

section

variable {α : Type} {catalog : Catalog}

mutual

/-- Forgetting tags commutes with leaving out inputs. -/
theorem Chain.erase_stack : ∀ c : Chain α, (c.stack catalog).erase = c.erase.stack catalog
  | .nil => rfl
  | .cons _ _ slots rest => by
    rw [Chain.stack, Stack.erase, slots.erase_stackAt, slots.erase_stackAt, rest.erase_stack]
    rfl

/-- Forgetting tags commutes with leaving out the inputs of a branch. -/
theorem Slots.erase_stackAt : ∀ (s : Slots α) (name : Option String),
    (s.stackAt catalog name).erase = s.erase.stackAt catalog name
  | .nil, _ => rfl
  | .cons input _ value _ rest, name => by
    rw [Slots.stackAt, Slots.erase, Slots.stackAt]
    split
    · exact value.erase_stack
    · exact rest.erase_stackAt name

end

/-- The stack of chains put together is that of both. -/
theorem Chain.stack_append : ∀ a b : Chain α,
    (a.append b).stack catalog = (a.stack catalog).append (b.stack catalog)
  | .nil, _ => rfl
  | .cons _ _ _ rest, b => by
    rw [Chain.append, Chain.stack, Chain.stack, Stack.append, Chain.stack_append rest b]

/-- No statements are in a slot that is not there. -/
theorem Slots.stackAt_of_notMem : ∀ {s : Slots α} {name : String}, name ∉ s.names →
    s.stackAt catalog (some name) = .nil
  | .nil, _, _ => rfl
  | .cons input _ value _ rest, name, h => by
    rw [Slots.names, List.mem_cons, not_or] at h
    rw [Slots.stackAt, if_neg (fun heq ↦ h.1 (Option.some.inj heq).symm)]
    exact Slots.stackAt_of_notMem h.2

/-- Without a branch there is nothing in it. -/
theorem Slots.stackAt_none (s : Slots α) : s.stackAt catalog none = .nil := by
  cases s with
  | nil => rfl
  | cons _ _ _ _ rest =>
    rw [Slots.stackAt, if_neg (Option.some_ne_none _)]
    exact Slots.stackAt_none rest

/-- Slots of other names do not matter to a branch. -/
theorem Slots.stackAt_append {name : String} : ∀ {s : Slots α}, name ∉ s.names → ∀ u : Slots α,
    (s.append u).stackAt catalog (some name) = u.stackAt catalog (some name)
  | .nil, _, _ => rfl
  | .cons input _ _ _ rest, h, u => by
    rw [Slots.names, List.mem_cons, not_or] at h
    rw [Slots.append, Slots.stackAt, if_neg (fun heq ↦ h.1 (Option.some.inj heq).symm)]
    exact Slots.stackAt_append h.2 u

/-- The statements of a sub-chain are found under its name. -/
theorem Slots.stackAt_branch {s : Slots α} {name : String} (h : name ∉ s.names) (c : Chain α) :
    (s.branch name c).stackAt catalog (some name) = c.stack catalog := by
  cases c with
  | nil => exact Slots.stackAt_of_notMem h
  | cons tag node slots rest =>
    rw [Slots.branch, Slots.stackAt_append h, Slots.stackAt, if_pos rfl]

/-- The first slot of a name decides about the branch. -/
theorem Slots.stackAt_append_of_mem {name : String} : ∀ {s : Slots α}, name ∈ s.names →
    ∀ u : Slots α,
    (s.append u).stackAt catalog (some name) = s.stackAt catalog (some name)
  | .cons input _ value _ rest, h, u => by
    rw [Slots.append, Slots.stackAt, Slots.stackAt]
    split
    · rfl
    · next hne =>
      exact Slots.stackAt_append_of_mem ((List.mem_cons.1 h).resolve_left fun heq ↦ hne (heq ▸ rfl))
        u

/-- A branch is not changed by another branch. -/
theorem Slots.stackAt_branch_of_ne {s : Slots α} {name other : String} (hne : name ≠ other)
    (c : Chain α) :
    (s.branch other c).stackAt catalog (some name) = s.stackAt catalog (some name) := by
  cases c with
  | nil => rfl
  | cons tag node slots rest =>
    rw [Slots.branch]
    by_cases hmem : name ∈ s.names
    · exact Slots.stackAt_append_of_mem hmem _
    · rw [Slots.stackAt_append hmem, Slots.stackAt_of_notMem hmem, Slots.stackAt_of_notMem]
      exact fun h ↦ hne (List.mem_singleton.1 h)

end

/-! ### Trees that a graph holds -/

section

variable {catalog : Catalog} {t : Target} {symbols : Symbols}

mutual

/-- A target that holds a tree holds its statements. -/
theorem Chain.Held.stack : ∀ {c : Chain BlockId} {s : Setting}, c.Held ⟨t.blocks, symbols⟩ s →
    (c.stack catalog).Held catalog t c.start
  | .nil, _, _ => rfl
  | .cons id node slots rest, s, ⟨b, hb, hsaid, hnext, hnames, hslots, hrest⟩ => by
    have hbranch : ∀ i : Nat, (slots.stackAt catalog (catalog.branchNames node.opcode)[i]?).Held
        catalog t (b.branch catalog i) := by
      intro i
      rw [Block.branch, hsaid.opcode]
      cases hname : (catalog.branchNames node.opcode)[i]? with
      | none =>
        rw [Slots.stackAt_none]
        rfl
      | some name => exact hslots.stackAt name (hnames name)
    exact ⟨rfl, b, hb, hsaid.opcode, hbranch 0, hbranch 1, hnext ▸ hrest.stack⟩

/-- A branch that is held as slots is held as a stack from the block its input names. -/
theorem Slots.Held.stackAt : ∀ {slots : Slots BlockId} {owner : BlockId} {inputs : Dict Slot},
    slots.Held ⟨t.blocks, symbols⟩ owner inputs → ∀ name : String,
    (name ∈ slots.names ↔ (inputs.find? name).isSome) →
      (slots.stackAt catalog (some name)).Held catalog t ((inputs.find? name).bind Slot.connected?)
  | .nil, _, inputs, _, name, hname => by
    have hnone : inputs.find? name = none := by
      rw [← Option.not_isSome_iff_eq_none, ← hname]
      exact List.not_mem_nil
    rw [hnone]
    rfl
  | .cons input constant value shadow rest, owner, inputs,
      ⟨⟨slot, hfind, hshows⟩, hvalue, _, hrest⟩, name, hname => by
    rw [Slots.stackAt]
    by_cases heq : input = name
    · subst heq
      rw [if_pos rfl, hfind, Option.bind_some, hshows.value]
      exact hvalue.stack
    · rw [if_neg (fun h ↦ heq (Option.some.inj h))]
      refine hrest.stackAt name (Iff.trans ?_ hname)
      rw [Slots.names, List.mem_cons, or_iff_right (Ne.symm heq)]

end

end

/-! ### Scripts -/

/-- Whether a block starts a script of its own. -/
def Catalog.isHead (catalog : Catalog) (opcode : String) : Bool :=
  match catalog.commandFor? opcode .hat with
  | some c => c.kind == .hat || c.kind == .define
  | none => false

namespace Stack

variable (catalog : Catalog)

/-- Whether a stack has a head. -/
def isHeaded {α : Type} : Stack α → Bool
  | .nil => false
  | .cons _ opcode _ _ _ => catalog.isHead opcode

/-- The head of a script that runs when the program starts. -/
def implicitHead : Stack Unit :=
  .cons () Opcode.flagClicked .nil .nil .nil

/-- Scripts with a stack below them: with a head it is a script, and without one it goes on with the
last script, or with one that runs when the program starts. -/
def join (scripts : List (Stack Unit)) (s : Stack Unit) : List (Stack Unit) :=
  if s.isHeaded catalog then scripts ++ [s]
  else match scripts.getLast? with
    | some last => scripts.dropLast ++ [last.append s]
    | none => [implicitHead.append s]

/-- The scripts that stacks make up one below the other. -/
def scripts (parts : List (Stack Unit)) : List (Stack Unit) :=
  parts.foldl (join catalog) []

variable {catalog}

/-- Whether a stack has a head does not depend on tags. -/
theorem isHeaded_erase {α : Type} (s : Stack α) :
    s.erase.isHeaded catalog = s.isHeaded catalog := by
  cases s <;> rfl

/-- Stacks that all have a head are scripts of their own. -/
theorem foldl_join {more : List (Stack Unit)} (h : ∀ s ∈ more, s.isHeaded catalog = true)
    (scripts : List (Stack Unit)) : more.foldl (join catalog) scripts = scripts ++ more := by
  induction more generalizing scripts with
  | nil => simp
  | cons s more ih =>
    obtain ⟨hs, hmore⟩ := List.forall_mem_cons.1 h
    rw [List.foldl_cons, join, if_pos hs, ih hmore]
    simp

/-- A stack without a head goes on with the script before it, so only those with one are counted. -/
theorem length_foldl_join {scripts : List (Stack Unit)} (hne : scripts ≠ [])
    (more : List (Stack Unit)) :
    (more.foldl (join catalog) scripts).length = scripts.length + more.countP
      (isHeaded catalog) := by
  induction more generalizing scripts with
  | nil => simp
  | cons s more ih =>
    obtain ⟨before, last, rfl⟩ : ∃ before last, scripts = before ++ [last] :=
      ⟨_, _, (List.dropLast_append_getLast hne).symm⟩
    rw [List.foldl_cons, join]
    split
    · next hs =>
      rw [ih (by simp), List.countP_cons_of_pos hs, List.length_append, List.length_singleton]
      omega
    · next hs =>
      rw [List.getLast?_concat]
      dsimp only
      rw [ih (by simp), List.countP_cons_of_neg hs, List.dropLast_concat, List.length_append,
        List.length_append]
      rfl

variable (catalog) in
/-- The script that a stack is on its own. -/
def alone (s : Stack Unit) : Stack Unit :=
  if s.isHeaded catalog then s else implicitHead.append s

/-- **Each stack is a script of its own exactly if all but the first have a head.** -/
theorem scripts_eq_map_alone (parts : List (Stack Unit)) :
    scripts catalog parts = parts.map (alone catalog) ↔
      ∀ s ∈ parts.tail, s.isHeaded catalog = true := by
  cases parts with
  | nil => simp [scripts]
  | cons first rest =>
    have hjoin : join catalog [] first = [first.alone catalog] := by
      unfold join alone
      split <;> rfl
    rw [scripts, List.foldl_cons, hjoin, List.tail_cons]
    constructor
    · -- a stack without a head is no script, so there would be too few of them
      intro h
      have hlength := congrArg List.length h
      rw [length_foldl_join (List.cons_ne_nil _ _), List.length_map, List.length_singleton,
        List.length_cons] at hlength
      exact List.countP_eq_length.1 (by omega)
    · intro h
      rw [foldl_join h, List.map_cons, List.singleton_append]
      have hrest : rest.map (alone catalog) = rest.map id :=
        List.map_congr_left fun s hs ↦ if_pos (h s hs)
      rw [hrest, List.map_id]

end Stack

end BlockScript

import BlockScript.Graph.Block

/-!
# Targets and programs

A target is the stage or a sprite: its scripts, the symbols it declares and the source of its
costume. A program is a stage with its sprites.
-/

namespace BlockScript

/-- A declared list or broadcast. -/
structure Symbol where
  /-- What blocks refer to it by. -/
  id : String
  /-- The name shown. -/
  name : String
deriving DecidableEq, Repr

/-- A declared variable with its initial value. -/
structure Variable where
  /-- What blocks refer to it by. -/
  id : String
  /-- The name shown. -/
  name : String
  /-- The initial value. -/
  value : String
deriving DecidableEq, Repr

/-- The stage or a sprite. -/
structure Target where
  /-- Which of the two it is. -/
  kind : TargetKind
  /-- The name. -/
  name : String
  /-- The blocks of all scripts. -/
  blocks : Dict Block := ∅
  /-- The variables declared here. -/
  vars : List Variable := []
  /-- The lists declared here. -/
  lists : List Symbol := []
  /-- The broadcasts, which the stage declares for all targets. -/
  broadcasts : List Symbol := []
  /-- Where the costume comes from. -/
  costume : Option String := none
deriving DecidableEq, Repr

namespace Target

/-- Whether the target is the stage. -/
def isStage (t : Target) : Bool := t.kind == .stage

/-- Whether a block is the entry point of a script. -/
def isRoot (b : Block) : Bool :=
  !b.shadow && b.isTopLevel && b.parent.isNone && b.opcode != Opcode.prototype

/-- The place of a block, for the order of scripts. -/
def placeOf (b : Block) : Place := b.place.getD ⟨0, 0⟩

/-- Whether one script comes before another: higher up, or further left at the same height. -/
def comesBefore (a b : BlockId × Block) : Bool :=
  let p := placeOf a.2
  let q := placeOf b.2
  p.y < q.y || (p.y == q.y && p.x ≤ q.x)

/-- The entry points of the scripts, from top to bottom and left to right; scripts at the same
place come in the order of their identifiers. -/
def roots (t : Target) : List BlockId :=
  ((t.blocks.entries.filter fun entry ↦ isRoot entry.2).mergeSort comesBefore).map (·.1)

end Target

/-- A stage with its sprites. -/
structure Program where
  /-- The stage. -/
  stage : Target
  /-- The sprites in order. -/
  sprites : List Target
  /-- The names of the block extensions in use. -/
  extensions : List String
deriving DecidableEq, Repr

/-- All targets, the stage first. -/
def Program.targets (p : Program) : List Target :=
  p.stage :: p.sprites

end BlockScript

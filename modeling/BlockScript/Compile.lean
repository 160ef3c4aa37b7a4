import BlockScript.Script.Line

/-!
# Programs from source texts

A whole program is made target by target, the stage first. Sprites see the variables and lists
of the stage, identifiers go on from target to target, and the broadcasts of all targets are
declared by the stage.
-/

namespace BlockScript

/-- A program with what is known of its making. -/
structure Compiled where
  /-- The program. -/
  program : Program
  /-- The warnings of all targets. -/
  warnings : List Warning
  /-- The number of commands that made a block. -/
  commandCount : Nat
  /-- The number of blocks. -/
  blockCount : Nat
  /-- The number of scripts of the stage. -/
  stageScripts : Nat
deriving DecidableEq, Repr

namespace Compile

/-- Appends the broadcasts that are not there yet. -/
def mergeBroadcasts (known : List Symbol) (more : List Symbol) : List Symbol :=
  more.foldl (fun all entry ↦ if all.any (·.id == entry.id) then all else all ++ [entry]) known

/-- Makes the sprites one after the other; each starts from the symbols of the stage and the
identifiers that the one before left. -/
def sprites (catalog : Catalog) (stage : Symbols) :
    IdSource → List SpriteSection → Except SourceError (List (SpriteSection × TargetBuild))
  | _, [] => .ok []
  | ids, sprite :: rest => do
    let d ← Script.draft catalog .sprite sprite.lines { ids, symbols := stage.within }
    return (sprite, d.finish .sprite sprite.name) :: (← sprites catalog stage d.ids rest)

/-- A sprite of the program: its broadcasts are left to the stage. -/
def spriteTarget (built : SpriteSection × TargetBuild) : Target :=
  { built.2.target with broadcasts := [], costume := built.1.costume }

/-- Makes a program from an outline. -/
def ofOutline (catalog : Catalog) (outline : Outline) : Except SourceError Compiled := do
  let d ← Script.draft catalog .stage outline.stage {}
  let stage := d.finish .stage "Stage"
  let built ← sprites catalog stage.symbols d.ids outline.sprites
  let builds := built.map (·.2)
  let broadcasts :=
    builds.foldl (fun all b ↦ mergeBroadcasts all b.target.broadcasts) stage.target.broadcasts
  let extensions :=
    builds.foldl (fun all b ↦ b.extensions.keys.foldl (fun all name ↦ all.insert name ()) all)
      stage.extensions
  return {
    program := {
      stage := { stage.target with broadcasts }
      sprites := built.map spriteTarget
      extensions := extensions.keys }
    warnings := stage.warnings.map (·.within "Stage") ++
      built.flatMap fun b ↦ b.2.warnings.map (·.within b.1.name)
    commandCount := stage.commandCount + total (builds.map TargetBuild.commandCount)
    blockCount := stage.blockCount + total (builds.map TargetBuild.blockCount)
    stageScripts := (stage.target.blocks.values.filter Block.isTopLevel).length }

/-- Makes a program from a source text. -/
def ofText (catalog : Catalog) (text : String) : Except SourceError Compiled := do
  ofOutline catalog (← Outline.ofText text)

end Compile

end BlockScript

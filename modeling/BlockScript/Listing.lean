import BlockScript.Listing.Statement

/-!
# Listings

The source text of a program: the declarations and scripts of each target in a section of its
own, such that the text can be read again.
-/

namespace BlockScript

/-- A source text with what is worth telling about its making. -/
structure Listing where
  /-- The text. -/
  text : String
  /-- The warnings of all targets. -/
  warnings : List Warning
deriving DecidableEq, Repr

namespace Listing

/-! ### Targets -/

/-- The lines that declare the variables of a target. -/
def variableLines (target : Target) : List String :=
  let fallback := if target.isStage then "stage_var" else "sprite_var"
  let named := target.vars.map fun v ↦ (Text.nameOr v.name fallback, v.value)
  (named.mergeSort fun a b ↦ comesBefore a.1 b.1).map fun v ↦
    commandLine "make_var" [Token.format v.1, initialValue v.2]

/-- The lines that declare lists or broadcasts. -/
def symbolLines (command fallback : String) (symbols : List Symbol) : List String :=
  ((symbols.map fun s ↦ Text.nameOr s.name fallback).mergeSort comesBefore).map fun name ↦
    commandLine command [Token.format name]

/-- The lines that declare the symbols of a target. Broadcasts are declared by the stage. -/
def declarationLines (target : Target) : List String :=
  variableLines target ++ symbolLines "make_list" "list" target.lists ++
    if target.isStage then
      symbolLines "make_broadcast" SymbolKind.broadcasts.fallbackName target.broadcasts
    else []

/-- Lines without the empty ones they end with. -/
def dropTrailingBlank (lines : List String) : List String :=
  (lines.reverse.dropWhile String.isEmpty).reverse

/-- Appends a script, after an empty line if there is anything before it. -/
def appendScript (lines script : List String) : List String :=
  if script.isEmpty then lines
  else match lines.getLast? with
    | some last => if last.isEmpty then lines ++ script else lines ++ "" :: script
    | none => script

/-- Writes the scripts of a target, each of them as the lines of its chain. -/
def scripts (catalog : Catalog) (target : Target) : Writer (List (List String)) :=
  target.roots.mapM fun root ↦ chain catalog target (target.blocks.size) (some root) 0

/-- The lines of a target and what is worth telling about them. -/
def targetLines (catalog : Catalog) (target : Target) : List String × List Warning :=
  let (scripts, walk) := (scripts catalog target).run {}
  (dropTrailingBlank (scripts.foldl appendScript (declarationLines target)),
    walk.remarks.map fun r ↦ ⟨0, r, some target.name⟩)

/-! ### Programs -/

/-- Lines inside a section; empty lines stay empty. -/
def inSection (lines : List String) : List String :=
  lines.map fun line ↦ if line.isEmpty then line else indent 1 line

/-- The first lines of every listing. -/
def banner : List String :=
  ["# Imported from .sb3", "# Review and adjust values before exporting."]

/-- The section of the stage, which is left out when it would be empty. -/
def stageSection (lines : List String) : List String :=
  if lines.isEmpty then []
  else ["", "stage_code ="] ++ inSection lines ++ ["end"]

/-- The section of a sprite. -/
def spriteSection (sprite : Target) (lines : List String) : List String :=
  ["", "sprite = " ++ Token.format sprite.name] ++
    (match sprite.costume with
      | some source => if source.isEmpty then [] else ["svg = " ++ Token.format source]
      | none => []) ++
    [codeHeader sprite.name ++ " ="] ++
    (if lines.isEmpty then [indent 1 "# no scripts imported for this sprite"]
      else inSection lines) ++
    ["end"]

/-- The lines of a program. -/
def programLines (catalog : Catalog) (program : Program) : List String :=
  dropTrailingBlank (banner ++ stageSection (targetLines catalog program.stage).1 ++
    program.sprites.flatMap fun sprite ↦ spriteSection sprite (targetLines catalog sprite).1)

/-- The listing of a program. -/
def ofProgram (catalog : Catalog) (program : Program) : Listing where
  text := Text.join "\n" (programLines catalog program)
  warnings := program.targets.flatMap fun target ↦ (targetLines catalog target).2

end Listing

end BlockScript

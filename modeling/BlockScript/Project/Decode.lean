import BlockScript.Json.Parser
import BlockScript.Number.Text
import BlockScript.Project.Encode

/-!
# Reading projects

The program that a document and its files describe. Documents come from other tools as well, so
whatever can be passed over is: only a list of targets, and for each target a name and an object of
blocks, are asked for. A slot may hold a variable, a list or a broadcast without a block for it;
such a block is made, under an identifier of its owner and its input.
-/

namespace BlockScript

/-- Why a document is no project. -/
inductive ProjectError where
  /-- There is no list of targets. -/
  | missingTargets
  /-- A target has no name. -/
  | missingName
  /-- A target has no object of blocks. -/
  | missingBlocks (target : String)
deriving DecidableEq, Repr

/-- The wording of an error. -/
def ProjectError.message : ProjectError → String
  | missingTargets => "Invalid project.json: missing 'targets' array."
  | missingName => "Target missing 'name'."
  | missingBlocks target => s!"Target '{target}' missing blocks object."

namespace Project

/-! ### Plain values -/

/-- The text that a value of a document shows as. -/
def scalarText : Json → String
  | .str s => s
  | .num (.integer i) => Number.format (Binary64.ofInt i)
  | .num (.float x) => Number.format x
  | .bool b => if b then "true" else "false"
  | .null => ""
  | other => other.render

/-- A coordinate, rounded; anything but a finite number is zero. -/
def coordinate (value : Option Json) : Int :=
  match value.bind Json.asBinary64? with
  | some x => if x.isFinite then x.round.toInt64 else 0
  | none => 0

/-- The texts of a document that is a list of texts. -/
def textsOf? (text : String) : Option (List String) := do
  let items ← (← Json.parse? text).asArr?
  items.mapM Json.asStr?

/-! ### Slots -/

/-- What one place of a slot holds. -/
inductive Element where
  /-- A block. -/
  | block (id : BlockId)
  /-- A constant. -/
  | literal (value : Literal)
  /-- A variable or list, for which a block is made. -/
  | reporter (id : BlockId) (made : Block)
  /-- A broadcast, for which a menu is made. -/
  | menu (id : BlockId) (made : Block)
deriving DecidableEq, Repr

namespace Element

/-- The block made for an element. -/
def made : Element → List (BlockId × Block)
  | reporter id made => [(id, made)]
  | menu id made => [(id, made)]
  | _ => []

/-- What an element is as a fallback. -/
def fallback? : Element → Option Fallback
  | literal value => some (.literal value)
  | block id => some (.shadow id)
  | menu id _ => some (.shadow id)
  | reporter _ _ => none

/-- Reads one place of a slot, where `id` identifies a block that has to be made. -/
def parse? (owner id : BlockId) (raw : Json) : Option Element :=
  match raw with
  | .str s => some (.block s)
  | .arr items => do
    let code ← items.head?.bind Json.asNat?
    let text := ((items[1]?).map scalarText).getD ""
    let symbol := (items[2]?).bind Json.asStr?
    let block (opcode field : String) (shadow : Bool) : Block :=
      { opcode, parent := some owner, shadow, fields := Dict.ofList [(field, ⟨text, symbol⟩)] }
    if code = 12 then return .reporter id (block "data_variable" "VARIABLE" false)
    else if code = 13 then return .reporter id (block "data_listcontents" "LIST" false)
    else if code = 11 then return .menu id (block "event_broadcast_menu" "BROADCAST_OPTION" true)
    else return .literal ⟨LiteralKind.ofCode code, text⟩
  | _ => none

end Element

/-- The slot of a fallback that nothing covers. -/
def fallbackSlot : Fallback → Slot
  | .literal value => .literal value
  | .shadow id => .shadow id

/-- A computed value over a fallback, if there is one. -/
def coveredSlot (id : BlockId) (second : Option Element) : Slot :=
  match second.bind Element.fallback? with
  | some fallback => .covered id fallback
  | none => .block id

/-- The slot of two places, given the number that tells how to take them: one for a fallback
alone, two for a value alone, three for a value over a fallback. A variable or list is always a
value. -/
def slotOf (tag : Nat) (first second : Option Element) : Option Slot :=
  match first with
  | some (.reporter id _) => some (coveredSlot id second)
  | some (.block id) =>
    if tag = 1 then some (.shadow id)
    else if tag = 2 then some (.block id)
    else if tag = 3 then some (coveredSlot id second)
    else none
  | some (.menu id _) =>
    if tag = 1 || tag = 2 then some (.shadow id)
    else if tag = 3 then (second.bind Element.fallback?).map fallbackSlot
    else none
  | some (.literal value) =>
    if tag = 1 || tag = 2 then some (.literal value)
    else if tag = 3 then (second.bind Element.fallback?).map fallbackSlot
    else none
  | none => if tag = 3 then (second.bind Element.fallback?).map fallbackSlot else none

/-- Reads a slot: what it holds, and the blocks made for it. -/
def readSlot (owner : BlockId) (input : String) (raw : Json) :
    Option Slot × List (BlockId × Block) :=
  match raw with
  | .arr items =>
    match items.head?.bind Json.asNat? with
    | none => (none, [])
    | some tag =>
      let id := owner ++ ":" ++ input
      let first := (items[1]?).bind (Element.parse? owner id)
      let second := (items[2]?).bind (Element.parse? owner (id ++ ":shadow"))
      (slotOf tag first second, (first.toList ++ second.toList).flatMap Element.made)
  | _ => (none, [])

/-! ### Blocks -/

/-- Reads a field. -/
def readField (raw : Json) : Field :=
  let items := raw.asArr?.getD []
  ⟨(items.head?.map scalarText).getD "", (items[1]?).bind Json.asStr?⟩

/-- Reads a procedure. -/
def readProcedure (raw : Json) : Procedure where
  signature := (raw.getStr? "proccode").getD ""
  argumentIds := ((raw.getStr? "argumentids").bind textsOf?).getD []
  argumentNames := ((raw.getStr? "argumentnames").bind textsOf?).getD []
  warp :=
    match raw.get? "warp" with
    | some (.bool b) => b
    | some (.str s) => s == "true"
    | _ => false

/-- Reads a block and the blocks made for its slots. -/
def readBlock (id : BlockId) (raw : Json) : Block × List (BlockId × Block) :=
  let slots := ((raw.getObj? "inputs").getD []).map fun entry ↦
    (entry.1, readSlot id entry.1 entry.2)
  let fields := ((raw.getObj? "fields").getD []).map fun entry ↦ (entry.1, readField entry.2)
  ({ opcode := (raw.getStr? "opcode").getD ""
     next := raw.getStr? "next"
     parent := raw.getStr? "parent"
     inputs := Dict.ofList (slots.filterMap fun slot ↦ slot.2.1.map (slot.1, ·))
     fields := Dict.ofList fields
     shadow := (raw.getBool? "shadow").getD false
     place :=
      if (raw.getBool? "topLevel").getD false then
        some ⟨coordinate (raw.get? "x"), coordinate (raw.get? "y")⟩
      else none
     procedure := (raw.get? "mutation").map readProcedure },
    slots.flatMap (·.2.2))

/-- Puts a block in its place, unless the place is taken. -/
def putMade (blocks : Dict Block) (made : BlockId × Block) : Dict Block :=
  if blocks.contains made.1 then blocks else blocks.insert made.1 made.2

/-- Reads the blocks of a target. Only objects describe blocks. -/
def readBlocks (raw : List (String × Json)) : Dict Block :=
  let read := raw.filterMap fun entry ↦
    match entry.2 with
    | .obj _ => some (entry.1, readBlock entry.1 entry.2)
    | _ => none
  (read.flatMap (·.2.2)).foldl putMade
    (Dict.ofList (read.map fun entry ↦ (entry.1, entry.2.1)))

/-! ### Costumes -/

/-- Whether a description is of a costume with a drawing. -/
def isDrawing (costume : Json) : Bool :=
  let format := Text.asciiLower ((costume.getStr? "dataFormat").getD "")
  (format.isEmpty || format == "svg") &&
    Text.endsWith (Text.asciiLower ((costume.getStr? "md5ext").getD "")) ".svg"

/-- The file of a costume, by the name it gives or by its identifier. -/
def costumeFile? (files : Files) (costume : Json) : Option (List UInt8) :=
  (files.find? ((costume.getStr? "md5ext").getD "")).or
    ((costume.getStr? "assetId").bind fun id ↦ files.find? (id ++ ".svg"))

/-- The source of the first costume of a target that is a drawing, if its file is there. -/
def costumeSource? (files : Files) (raw : Json) : Option String := do
  let costume ← (← raw.getArr? "costumes").find? isDrawing
  let text ← Text.ofUtf8? (← costumeFile? files costume)
  if Text.contains text "<svg" then return DataUrl.ofMarkup text else none

/-! ### Targets -/

/-- Reads the variables of a target. -/
def readVariables (raw : Json) : List Variable :=
  ((raw.getObj? "variables").getD []).filterMap fun entry ↦
    match entry.2 with
    | .arr (name :: value :: _) => some ⟨entry.1, scalarText name, scalarText value⟩
    | _ => none

/-- Reads the lists of a target. -/
def readLists (raw : Json) : List Symbol :=
  ((raw.getObj? "lists").getD []).filterMap fun entry ↦
    match entry.2 with
    | .arr (name :: _) => some ⟨entry.1, scalarText name⟩
    | _ => none

/-- Reads the broadcasts of a target. -/
def readBroadcasts (raw : Json) : List Symbol :=
  ((raw.getObj? "broadcasts").getD []).map fun entry ↦ ⟨entry.1, scalarText entry.2⟩

/-- Reads a target. -/
def readTarget (files : Files) (raw : Json) : Except ProjectError Target :=
  match raw.getStr? "name" with
  | none => .error .missingName
  | some name =>
    let isStage := (raw.getBool? "isStage").getD false
    match raw.getObj? "blocks" with
    | none => .error (.missingBlocks name)
    | some blocks => .ok {
        kind := if isStage then .stage else .sprite
        name
        blocks := readBlocks blocks
        vars := readVariables raw
        lists := readLists raw
        broadcasts := readBroadcasts raw
        costume := if isStage then none else costumeSource? files raw }

/-- The program that a document and its files describe. Of several stages the first counts, and a
missing one is empty. -/
def toProgram (document : Json) (files : Files) : Except ProjectError Program := do
  match document.getArr? "targets" with
  | none => throw .missingTargets
  | some raw =>
    let targets ← raw.mapM (readTarget files)
    return {
      stage := (targets.find? Target.isStage).getD { kind := .stage, name := "Stage" }
      sprites := targets.filter (!·.isStage)
      extensions := ((document.getArr? "extensions").getD []).filterMap Json.asStr? }

end Project

end BlockScript

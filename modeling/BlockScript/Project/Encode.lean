import BlockScript.Costume.Basic
import BlockScript.Diagnostic
import BlockScript.Graph.Target
import BlockScript.Json.Printer
import BlockScript.Text.Utf8

/-!
# Projects

A project is a JSON document that describes a program, together with the files of the costumes it
names. `Project.ofProgram` makes the project of a program: it first finds the costumes of the
sprites, which may need files from outside, and all else is a function of the program and its
costumes (`Project.ofCostumes`).
-/

namespace BlockScript

/-- Files by their names. -/
abbrev Files := Dict (List UInt8)

/-- A project with what is worth telling about its making. -/
structure Project where
  /-- The document. -/
  document : Json
  /-- The files that the document names. -/
  files : Files
  /-- What is worth telling. -/
  warnings : List Warning := []
deriving Repr

/-- A number of a document: an integer where it is whole and not too large. -/
def Json.ofBinary64 (x : Binary64) : Json :=
  if x.isIntegral && x.absLess (Binary64.ofNat 9000000000000000) then .int x.toInt64
  else .num (.float x)

/-- A text, or null. -/
def Json.ofText? (s : Option String) : Json :=
  Json.ofOption .str s

namespace Project

/-! ### Blocks -/

/-- The description of a literal. -/
def literalJson (value : Literal) : Json :=
  .arr [.nat value.kind.code, .str value.text]

/-- The description of a slot: a number that tells what it holds, and the contents. -/
def slotJson : Slot → Json
  | .literal value => .arr [.nat 1, literalJson value]
  | .shadow id => .arr [.nat 1, .str id]
  | .block id => .arr [.nat 2, .str id]
  | .covered id (.literal value) => .arr [.nat 3, .str id, literalJson value]
  | .covered id (.shadow menu) => .arr [.nat 3, .str id, .str menu]

/-- The description of a field. -/
def fieldJson (field : Field) : Json :=
  .arr [.str field.text, .ofText? field.symbol]

/-- Texts as the text of a document of their own. -/
def textsText (texts : List String) : Json :=
  .str (Json.arr (texts.map .str)).render

/-- The description of a procedure; only a prototype tells the names of the arguments. -/
def procedureJson (procedure : Procedure) (isPrototype : Bool) : Json :=
  Json.object ([
    ("tagName", .str "mutation"),
    ("children", .arr []),
    ("proccode", .str procedure.signature),
    ("argumentids", textsText procedure.argumentIds),
    ("warp", .str (if procedure.warp then "true" else "false"))] ++
    if isPrototype then [
      ("argumentnames", textsText procedure.argumentNames),
      ("argumentdefaults", textsText (procedure.argumentNames.map fun _ ↦ ""))]
    else [])

/-- The description of a block. -/
def blockJson (block : Block) : Json :=
  Json.object ([
    ("opcode", .str block.opcode),
    ("next", .ofText? block.next),
    ("parent", .ofText? block.parent),
    ("inputs", .ofDict (block.inputs.map slotJson)),
    ("fields", .ofDict (block.fields.map fieldJson)),
    ("shadow", .bool block.shadow),
    ("topLevel", .bool block.isTopLevel)] ++
    (match block.place with
      | some place => [("x", .int place.x), ("y", .int place.y)]
      | none => []) ++
    (match block.procedure with
      | some procedure =>
        [("mutation", procedureJson procedure (block.opcode == Opcode.prototype))]
      | none => []))

/-! ### Targets -/

/-- The description of a costume. -/
def costumeJson (costume : Costume) (name : String) : Json :=
  Json.object [
    ("assetId", .str costume.assetId),
    ("md5ext", .str costume.fileName),
    ("name", .str name),
    ("bitmapResolution", .nat 1),
    ("dataFormat", .str "svg"),
    ("rotationCenterX", .ofBinary64 costume.center.x),
    ("rotationCenterY", .ofBinary64 costume.center.y)]

/-- What is described of both kinds of targets. -/
def targetFields (target : Target) (costume : Costume) (costumeName : String) (layer : Nat) :
    List (String × Json) :=
  [("isStage", .bool target.isStage),
    ("name", .str target.name),
    ("variables", Json.object (target.vars.map fun v ↦ (v.id, .arr [.str v.name, .str v.value]))),
    ("lists", Json.object (target.lists.map fun l ↦ (l.id, .arr [.str l.name, .arr []]))),
    ("broadcasts", Json.object (if target.isStage then
      target.broadcasts.map fun b ↦ (b.id, .str b.name) else [])),
    ("blocks", .ofDict (target.blocks.map blockJson)),
    ("comments", Json.object []),
    ("currentCostume", .nat 0),
    ("costumes", .arr [costumeJson costume costumeName]),
    ("sounds", .arr []),
    ("volume", .nat 100),
    ("layerOrder", .nat layer)]

/-- The description of the stage. -/
def stageJson (stage : Target) : Json :=
  Json.object (targetFields stage Costume.stage "backdrop1" 0 ++ [
    ("tempo", .nat 60),
    ("videoTransparency", .nat 50),
    ("videoState", .str "on"),
    ("textToSpeechLanguage", .null)])

/-- The description of a sprite. -/
def spriteJson (sprite : Target) (costume : Costume) (layer : Nat) : Json :=
  Json.object (targetFields sprite costume "costume1" layer ++ [
    ("visible", .bool true),
    ("x", .nat 0),
    ("y", .nat 0),
    ("size", .nat 100),
    ("direction", .nat 90),
    ("draggable", .bool false),
    ("rotationStyle", .str "all around")])

/-! ### Programs -/

/-- The document of a program whose sprites wear the given costumes. -/
def documentOf (program : Program) (costumes : List Costume) : Json :=
  Json.object [
    ("targets", .arr (stageJson program.stage ::
      (program.sprites.zip costumes).zipIdx.map fun entry ↦
        spriteJson entry.1.1 entry.1.2 (entry.2 + 1))),
    ("monitors", .arr []),
    ("extensions", .arr (program.extensions.map .str)),
    ("meta", Json.object [
      ("semver", .str "3.0.0"),
      ("vm", .str "0.2.0"),
      ("agent", .str "text2scratch")])]

/-- The files of some costumes. -/
def filesOf (costumes : List Costume) : Files :=
  Dict.ofList (costumes.map fun c ↦ (c.fileName, Text.utf8 c.markup))

/-- The project of a program whose sprites wear the given costumes. -/
def ofCostumes (program : Program) (costumes : List Costume) (warnings : List Warning) :
    Project where
  document := documentOf program costumes
  files := filesOf (Costume.stage :: costumes)
  warnings := warnings

/-- The costume of a sprite. One that cannot be had is replaced, with a warning. -/
def costumeOf {m : Type → Type} [Monad m] (fetch : Option (Costume.FileReader m))
    (sprite : Target) : m (Costume × Option Warning) := do
  match sprite.costume with
  | none => return (Costume.sprite, none)
  | some source =>
    match ← Costume.resolve fetch source with
    | .ok costume => return (costume, none)
    | .error e =>
      return (Costume.sprite, some ⟨0, .defaultCostume sprite.name e.message, none⟩)

/-- The project of a program. -/
def ofProgram {m : Type → Type} [Monad m] (fetch : Option (Costume.FileReader m))
    (program : Program) : m Project := do
  let found ← program.sprites.mapM (costumeOf fetch)
  return ofCostumes program (found.map (·.1)) (found.filterMap (·.2))

end Project

end BlockScript

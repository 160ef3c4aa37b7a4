import Mathlib.Data.List.Sort
import BlockScript.Proofs.Dictionary
import BlockScript.Proofs.Exact
import BlockScript.Proofs.JsonText

/-!
# Projects read back

The program that is read from the project of a program is the program itself, up to the order of its
declarations and to its costumes (`Project.toProgram_ofProgram`). The document says by position and
by number what a slot holds, so each form of a slot has to come back as itself and never as one of
the forms that other tools write (`Project.readSlot_slotJson`). From slots and fields this goes up
to blocks, to the blocks of a target and to targets.
-/

namespace BlockScript

/-! ### What can be written down -/

/-- The place of the block is small enough for a document, and only a prototype names arguments. -/
structure Block.IsPortable (b : Block) : Prop where
  place : ∀ p ∈ b.place, p.x.natAbs ≤ 2 ^ 53 ∧ p.y.natAbs ≤ 2 ^ 53
  arguments : ∀ p ∈ b.procedure, b.opcode ≠ Opcode.prototype → p.argumentNames = []

instance (b : Block) : Decidable b.IsPortable :=
  decidable_of_iff ((∀ p ∈ b.place, p.x.natAbs ≤ 2 ^ 53 ∧ p.y.natAbs ≤ 2 ^ 53) ∧
      ∀ p ∈ b.procedure, b.opcode ≠ Opcode.prototype → p.argumentNames = [])
    ⟨fun h ↦ ⟨h.1, h.2⟩, fun h ↦ ⟨h.place, h.arguments⟩⟩

/-- All blocks of the target can be written down, and its declarations have identifiers of their
own. -/
structure Target.IsPortable (t : Target) : Prop where
  blocks : ∀ entry ∈ t.blocks.entries, entry.2.IsPortable
  vars : (t.vars.map Variable.id).Nodup
  lists : (t.lists.map Symbol.id).Nodup
  broadcasts : (t.broadcasts.map Symbol.id).Nodup

instance (t : Target) : Decidable t.IsPortable :=
  decidable_of_iff ((∀ entry ∈ t.blocks.entries, entry.2.IsPortable) ∧
      (t.vars.map Variable.id).Nodup ∧ (t.lists.map Symbol.id).Nodup ∧
      (t.broadcasts.map Symbol.id).Nodup)
    ⟨fun h ↦ ⟨h.1, h.2.1, h.2.2.1, h.2.2.2⟩, fun h ↦ ⟨h.blocks, h.vars, h.lists, h.broadcasts⟩⟩

/-- All targets of the program can be written down, and each is of its kind. -/
structure Program.IsPortable (p : Program) : Prop where
  stage : p.stage.kind = .stage
  sprites : ∀ t ∈ p.sprites, t.kind = .sprite
  targets : ∀ t ∈ p.targets, t.IsPortable

instance (p : Program) : Decidable p.IsPortable :=
  decidable_of_iff (p.stage.kind = .stage ∧ (∀ t ∈ p.sprites, t.kind = .sprite) ∧
      ∀ t ∈ p.targets, t.IsPortable)
    ⟨fun h ↦ ⟨h.1, h.2.1, h.2.2⟩, fun h ↦ ⟨h.stage, h.sprites, h.targets⟩⟩

/-- The target with its declarations in the order of their identifiers and without its costume.
Sprites have no broadcasts of their own. -/
def Target.listed (t : Target) : Target :=
  { t with
    vars := t.vars.mergeSort fun a b ↦ a.id ≤ b.id
    lists := t.lists.mergeSort fun a b ↦ a.id ≤ b.id
    broadcasts := if t.isStage then t.broadcasts.mergeSort fun a b ↦ a.id ≤ b.id else []
    costume := none }

/-- The target without its costume. -/
def Target.bare (t : Target) : Target := { t with costume := none }

/-- The program with its declarations in order and without costumes. -/
def Program.listed (p : Program) : Program :=
  { p with stage := p.stage.listed, sprites := p.sprites.map Target.listed }

/-- The program without costumes. -/
def Program.bare (p : Program) : Program :=
  { p with stage := p.stage.bare, sprites := p.sprites.map Target.bare }

namespace Json

/-- A field of an object that was written twice has its last value. -/
theorem get?_object (fields : List (String × Json)) (key : String) :
    (Json.object fields).get? key = Dict.lookup key fields.reverse :=
  Dict.find?_ofList fields key

/-- A text is read as itself. -/
@[simp]
theorem asStr?_str (s : String) : (Json.str s).asStr? = some s := rfl

/-- A truth value is read as itself. -/
@[simp]
theorem asBool?_bool (b : Bool) : (Json.bool b).asBool? = some b := rfl

/-- A list is read as its items. -/
@[simp]
theorem asArr?_arr (items : List Json) : (Json.arr items).asArr? = some items := rfl

/-- The object of a dictionary is read as its entries. -/
@[simp]
theorem asObj?_ofDict (fields : Dict Json) : (Json.ofDict fields).asObj? = some fields.entries :=
  rfl

/-- An object is read as a dictionary. -/
@[simp]
theorem asObj?_object (fields : List (String × Json)) :
    (Json.object fields).asObj? = some (Dict.ofList fields).entries := rfl

/-- A text that may be missing is read as itself. -/
@[simp]
theorem asStr?_ofText? (s : Option String) : (Json.ofText? s).asStr? = s := by
  cases s <;> rfl

end Json

namespace Project

/-! ### Slots, fields and procedures -/

/-- A constant comes back with its kind and its text. -/
theorem parse?_literalJson (owner id : BlockId) (value : Literal) :
    Element.parse? owner id (literalJson value) = some (.literal value) := by
  obtain ⟨kind, text⟩ := value
  cases kind <;> rfl

/-- A slot comes back as itself, and no block is made for it. -/
theorem readSlot_slotJson (owner : BlockId) (input : String) (slot : Slot) :
    readSlot owner input (slotJson slot) = (some slot, []) := by
  have hblock : ∀ id other, Element.parse? owner id (.str other) = some (.block other) :=
    fun _ _ ↦ rfl
  have hnat : ∀ n : Nat, (Json.nat n).asNat? = some n := fun n ↦ by simp [Json.nat, Json.asNat?]
  rcases slot with value | id | id | ⟨id, value | menu⟩ <;>
    simp [readSlot, slotJson, hnat, hblock, parse?_literalJson, slotOf, coveredSlot,
      Element.fallback?, Element.made]

/-- A field comes back as itself. -/
theorem readField_fieldJson (field : Field) : readField (fieldJson field) = field := by
  simp [readField, fieldJson, scalarText]

/-- A coordinate of moderate size is not rounded. -/
theorem coordinate_int {i : Int} (h : i.natAbs ≤ 2 ^ 53) : coordinate (some (.int i)) = i := by
  obtain ⟨hfinite, hround⟩ := Binary64.toInt64_round_ofInt h
  simp [coordinate, Json.int, Json.asBinary64?, hfinite, hround]

/-- A procedure comes back, with the argument names of a prototype only. -/
theorem readProcedure_procedureJson (procedure : Procedure) (isPrototype : Bool)
    (h : isPrototype = false → procedure.argumentNames = []) :
    readProcedure (procedureJson procedure isPrototype) = procedure := by
  obtain ⟨signature, argumentIds, argumentNames, warp⟩ := procedure
  have hwarp : ((if warp then "true" else "false") == "true") = warp := by cases warp <;> rfl
  cases isPrototype with
  | true =>
    simp [readProcedure, procedureJson, Json.getStr?, Json.get?_object, Dict.lookup, textsText,
      textsOf?_render, hwarp]
  | false =>
    obtain rfl := h rfl
    simp [readProcedure, procedureJson, Json.getStr?, Json.get?_object, Dict.lookup, textsText,
      textsOf?_render, hwarp]

/-! ### Blocks -/

/-- What is read from the inputs of a block, and what from its fields. -/
theorem read_inputs (id : BlockId) (inputs : Dict Slot) :
    (inputs.map slotJson).entries.map (fun entry ↦ (entry.1, readSlot id entry.1 entry.2)) =
      inputs.entries.map fun entry ↦ (entry.1, some entry.2, []) := by
  simp only [Dict.map, List.map_map, Function.comp_def, readSlot_slotJson]

/-- What is read from the fields of a block. -/
theorem read_fields (fields : Dict Field) :
    (fields.map fieldJson).entries.map (fun entry ↦ (entry.1, readField entry.2)) =
      fields.entries := by
  simp only [Dict.map, List.map_map, Function.comp_def, readField_fieldJson, Prod.eta, List.map_id']

/-- What a description of a block says under each key. -/
structure Describes (raw : Json) (b : Block) : Prop where
  opcode : raw.getStr? "opcode" = some b.opcode
  next : raw.getStr? "next" = b.next
  parent : raw.getStr? "parent" = b.parent
  inputs : raw.getObj? "inputs" = some (b.inputs.map slotJson).entries
  fields : raw.getObj? "fields" = some (b.fields.map fieldJson).entries
  shadow : raw.getBool? "shadow" = some b.shadow
  topLevel : raw.getBool? "topLevel" = some b.isTopLevel
  place : ∀ p ∈ b.place, raw.get? "x" = some (.int p.x) ∧ raw.get? "y" = some (.int p.y)
  procedure : raw.get? "mutation" =
    b.procedure.map fun procedure ↦ procedureJson procedure (b.opcode == Opcode.prototype)

/-- A block is described by the object that is written for it. -/
theorem describes_blockJson (b : Block) : Describes (blockJson b) b := by
  unfold blockJson
  constructor <;> rcases b.place with - | place <;> rcases b.procedure with - | procedure <;>
    simp [Json.getStr?, Json.getBool?, Json.getObj?, Json.get?_object, Dict.lookup]

/-- A block comes back as itself. -/
theorem readBlock_blockJson (id : BlockId) {b : Block} (h : b.IsPortable) :
    readBlock id (blockJson b) = (b, []) := by
  have hraw := describes_blockJson b
  generalize blockJson b = raw at hraw
  -- only a block with a place is at the top, and its coordinates are not rounded
  have hplace : (if b.isTopLevel then
      some (⟨coordinate (raw.get? "x"), coordinate (raw.get? "y")⟩ : Place)
      else none) = b.place := by
    unfold Block.isTopLevel
    cases hp : b.place with
    | none => rfl
    | some p =>
      obtain ⟨hx, hy⟩ := hraw.place p hp
      obtain ⟨hxb, hyb⟩ := h.place p hp
      rw [hx, hy, coordinate_int hxb, coordinate_int hyb]
      rfl
  have hprocedure : (raw.get? "mutation").map readProcedure = b.procedure := by
    rw [hraw.procedure]
    cases hp : b.procedure with
    | none => rfl
    | some procedure =>
      refine congrArg some (readProcedure_procedureJson procedure _ fun hne ↦ ?_)
      exact h.arguments procedure hp (ne_of_beq_false hne)
  have hslots : (b.inputs.entries.map fun entry ↦
    (entry.1, some entry.2, ([] : List (BlockId × Block)))
      ).filterMap (fun slot ↦ slot.2.1.map (slot.1, ·)) = b.inputs.entries := by
    simp [List.filterMap_map]
  simp only [readBlock, hraw.opcode, hraw.next, hraw.parent, hraw.inputs, hraw.fields, hraw.shadow,
    hraw.topLevel, Option.getD_some, read_inputs, read_fields, hslots, Dict.ofList_entries, hplace,
    hprocedure]
  simp [List.flatMap_map]

/-- The blocks of a target come back. -/
theorem readBlocks_blockJson {blocks : Dict Block}
    (h : ∀ entry ∈ blocks.entries, entry.2.IsPortable) :
    readBlocks (blocks.map blockJson).entries = blocks := by
  have hread : ∀ f : String × Json → Option (String × Block × List (BlockId × Block)),
      (∀ entry ∈ blocks.entries, f (entry.1, blockJson entry.2) = some (entry.1, entry.2, [])) →
        (blocks.map blockJson).entries.filterMap f =
          blocks.entries.map fun entry ↦ (entry.1, entry.2, []) := by
    intro f hf
    rw [Dict.map, List.filterMap_map, ← List.filterMap_eq_map]
    exact List.filterMap_congr hf
  unfold readBlocks
  rw [hread]
  · have hmade : blocks.entries.flatMap (fun _ ↦ ([] : List (BlockId × Block))) = [] :=
      List.flatMap_eq_nil_iff.2 fun _ _ ↦ rfl
    simp only [List.flatMap_map, List.map_map, Function.comp_def, hmade, List.foldl_nil, Prod.eta,
      List.map_id', Dict.ofList_entries]
  · intro entry hentry
    rw [← readBlock_blockJson entry.1 (h entry hentry)]
    rfl

/-! ### Declarations -/

/-- What is declared under identifiers of its own comes back in the order of the identifiers. -/
theorem filterMap_ofList {α : Type} (id : α → String) (write : α → Json)
    (read : String × Json → Option α) (hread : ∀ a, read (id a, write a) = some a) {l : List α}
    (h : (l.map id).Nodup) :
    (Dict.ofList (l.map fun a ↦ (id a, write a))).entries.filterMap read =
      l.mergeSort fun a b ↦ id a ≤ id b := by
  have hkeys : ((l.map fun a ↦ (id a, write a)).map Prod.fst).Nodup := by
    rw [List.map_map]
    exact h
  have hperm : ((Dict.ofList (l.map fun a ↦ (id a, write a))).entries.filterMap read).Perm l := by
    refine ((Dict.perm_entries_ofList hkeys).filterMap read).trans (List.Perm.of_eq ?_)
    rw [List.filterMap_map]
    exact (List.filterMap_congr fun a _ ↦ hread a).trans List.filterMap_some
  have hsorted : ((Dict.ofList (l.map fun a ↦ (id a, write a))).entries.filterMap read).Pairwise
      fun a b ↦ id a ≤ id b := by
    rw [List.pairwise_filterMap]
    refine (Dict.ofList _).sorted.imp_of_mem fun {x y} hx hy hlt a ha b hb ↦ ?_
    obtain ⟨a', -, rfl⟩ := List.mem_map.1 (Dict.mem_of_mem_ofList hx)
    obtain ⟨b', -, rfl⟩ := List.mem_map.1 (Dict.mem_of_mem_ofList hy)
    obtain rfl := Option.some.inj ((hread a').symm.trans ha)
    obtain rfl := Option.some.inj ((hread b').symm.trans hb)
    exact String.not_lt.1 fun hgt ↦ String.lt_irrefl _ (String.lt_trans hlt hgt)
  have hmerge : (l.mergeSort fun a b ↦ id a ≤ id b).Pairwise fun a b ↦ id a ≤ id b := by
    have hle : (l.mergeSort fun a b ↦ id a ≤ id b).Pairwise
        fun a b ↦ decide (id a ≤ id b) = true := by
      refine List.pairwise_mergeSort (fun a b c hab hbc ↦ ?_) (fun a b ↦ ?_) l
      · simp only [decide_eq_true_eq] at hab hbc ⊢
        exact String.le_trans hab hbc
      · simp only [Bool.or_eq_true, decide_eq_true_eq]
        exact String.le_total _ _
    simpa only [decide_eq_true_eq] using hle
  -- two rows of the same declarations, both sorted by different identifiers, are one
  refine (hperm.trans (List.mergeSort_perm l _).symm).eq_of_pairwise (fun a b ha hb hab hba ↦ ?_)
    hsorted hmerge
  exact List.inj_on_of_nodup_map h (hperm.mem_iff.1 ha) ((List.mergeSort_perm l _).mem_iff.1 hb)
    (String.le_antisymm hab hba)

/-! ### Targets -/

/-- What a description of a target says under each key. -/
structure DescribesTarget (raw : Json) (t : Target) : Prop where
  name : raw.getStr? "name" = some t.name
  isStage : raw.getBool? "isStage" = some t.isStage
  blocks : raw.getObj? "blocks" = some (t.blocks.map blockJson).entries
  vars : raw.getObj? "variables" = some (Dict.ofList (t.vars.map fun v ↦
    (v.id, Json.arr [.str v.name, .str v.value]))).entries
  lists : raw.getObj? "lists" = some (Dict.ofList (t.lists.map fun l ↦
    (l.id, Json.arr [.str l.name, .arr []]))).entries
  broadcasts : raw.getObj? "broadcasts" = some (Dict.ofList (if t.isStage then
    t.broadcasts.map fun b ↦ (b.id, Json.str b.name) else [])).entries

/-- The stage is described by the object that is written for it. -/
theorem describes_stageJson (t : Target) : DescribesTarget (stageJson t) t := by
  unfold stageJson targetFields
  constructor <;> simp [Json.getStr?, Json.getBool?, Json.getObj?, Json.get?_object, Dict.lookup]

/-- A sprite is described by the object that is written for it, whatever its costume and layer. -/
theorem describes_spriteJson (t : Target) (costume : Costume) (layer : Nat) :
    DescribesTarget (spriteJson t costume layer) t := by
  unfold spriteJson targetFields
  constructor <;> simp [Json.getStr?, Json.getBool?, Json.getObj?, Json.get?_object, Dict.lookup]

/-- A target comes back with its declarations in order, apart from its costume. -/
theorem readTarget_of_describes (files : Files) {raw : Json} {t : Target}
    (hraw : DescribesTarget raw t) (h : t.IsPortable) :
    ∃ found, readTarget files raw = .ok found ∧ found.bare = t.listed := by
  have hvars : readVariables raw = t.listed.vars := by
    unfold readVariables
    rw [hraw.vars]
    exact filterMap_ofList Variable.id _ _ (fun _ ↦ rfl) h.vars
  have hlists : readLists raw = t.listed.lists := by
    unfold readLists
    rw [hraw.lists]
    exact filterMap_ofList Symbol.id _ _ (fun _ ↦ rfl) h.lists
  have hbroadcasts : readBroadcasts raw = t.listed.broadcasts := by
    unfold readBroadcasts Target.listed
    rw [hraw.broadcasts, ← List.filterMap_eq_map]
    split
    · exact filterMap_ofList Symbol.id _ _ (fun _ ↦ rfl) h.broadcasts
    · rfl
  have hkind : (if t.isStage then TargetKind.stage else .sprite) = t.kind := by
    unfold Target.isStage
    cases t.kind <;> rfl
  unfold readTarget
  simp only [hraw.name, hraw.isStage, hraw.blocks, Option.getD_some, readBlocks_blockJson h.blocks,
    hvars, hlists, hbroadcasts, hkind]
  exact ⟨_, rfl, rfl⟩

/-- The sprites come back one by one. -/
theorem mapM_spriteJson (files : Files) (sprites : List Target) : ∀ (costumes : List Costume)
    (n : Nat), costumes.length = sprites.length → (∀ t ∈ sprites, t.IsPortable) →
    ∃ found, (((sprites.zip costumes).zipIdx n).map fun entry ↦
        spriteJson entry.1.1 entry.1.2 (entry.2 + 1)).mapM (readTarget files) = .ok found ∧
      found.map Target.bare = sprites.map Target.listed := by
  induction sprites with
  | nil => exact fun _ _ _ _ ↦ ⟨[], rfl, rfl⟩
  | cons t sprites ih =>
    intro costumes n hlength hportable
    obtain ⟨costume, costumes, rfl⟩ := List.exists_cons_of_length_eq_add_one hlength
    obtain ⟨first, hfirst, hbare⟩ := readTarget_of_describes files
      (describes_spriteJson t costume (n + 1)) (hportable t List.mem_cons_self)
    obtain ⟨found, hfound, hrest⟩ := ih costumes (n + 1) (Nat.succ.inj hlength)
      fun s hs ↦ hportable s (List.mem_cons_of_mem _ hs)
    refine ⟨first :: found, ?_, by rw [List.map_cons, List.map_cons, hbare, hrest]⟩
    rw [List.zip_cons_cons, List.zipIdx_cons, List.map_cons, List.mapM_cons, hfirst]
    simp only [hfound, bind, Except.bind, pure, Except.pure]

/-! ### Programs -/

/-- A target that comes back is the stage if it was. -/
theorem isStage_of_bare {t found : Target} (h : found.bare = t.listed) :
    found.isStage = t.isStage := by
  have hkind : found.bare.kind = t.listed.kind := by rw [h]
  have hsame : found.kind = t.kind := hkind
  rw [Target.isStage, Target.isStage, hsame]

/-- A program comes back from its document, whatever costumes its sprites wear. -/
theorem toProgram_documentOf {program : Program} (h : program.IsPortable) {costumes : List Costume}
    (hlength : costumes.length = program.sprites.length) (files : Files) :
    (toProgram (documentOf program costumes) files).map Program.bare = .ok program.listed := by
  obtain ⟨stage, hstage, hbare⟩ := readTarget_of_describes files (describes_stageJson program.stage)
    (h.targets _ List.mem_cons_self)
  obtain ⟨sprites, hsprites, hbares⟩ := mapM_spriteJson files program.sprites costumes 0 hlength
    fun t ht ↦ h.targets t (List.mem_cons_of_mem _ ht)
  have htargets : (documentOf program costumes).getArr? "targets" = some (stageJson program.stage ::
      (program.sprites.zip costumes).zipIdx.map fun entry ↦
        spriteJson entry.1.1 entry.1.2 (entry.2 + 1)) := by
    simp [documentOf, Json.getArr?, Json.get?_object, Dict.lookup]
  have hextensions : (documentOf program costumes).getArr? "extensions" =
      some (program.extensions.map .str) := by
    simp [documentOf, Json.getArr?, Json.get?_object, Dict.lookup]
  have hfound : (stageJson program.stage :: (program.sprites.zip costumes).zipIdx.map fun entry ↦
      spriteJson entry.1.1 entry.1.2 (entry.2 + 1)).mapM (readTarget files) =
        .ok (stage :: sprites) := by
    rw [List.mapM_cons, hstage]
    simp only [hsprites, bind, Except.bind, pure, Except.pure]
  have hisStage : stage.isStage = true := by
    rw [isStage_of_bare hbare, Target.isStage, h.stage]
    rfl
  have hothers : sprites.filter (!·.isStage) = sprites := by
    refine List.filter_eq_self.2 fun found hfound ↦ ?_
    -- a target that was read for a sprite is of the kind of that sprite
    have hmem : found.bare ∈ program.sprites.map Target.listed :=
      hbares ▸ List.mem_map_of_mem hfound
    obtain ⟨t, ht, heq⟩ := List.mem_map.1 hmem
    rw [isStage_of_bare heq.symm, Target.isStage, h.sprites t ht]
    rfl
  have htexts : (program.extensions.map Json.str).filterMap Json.asStr? = program.extensions := by
    simp [List.filterMap_map, Function.comp_def]
  unfold toProgram
  simp only [htargets, hextensions, hfound, bind, Except.bind, pure, Except.pure, Except.map,
    List.find?_cons, hisStage, Option.getD_some, List.filter_cons, Bool.not_true,
    Bool.false_eq_true, if_false, hothers, htexts]
  rw [Program.bare, Program.listed, hbare, hbares]

/-- What is made of a list can be told from its length alone. -/
theorem map_mapM_congr {m : Type → Type} [Monad m] [LawfulMonad m] {α β γ : Type} (f : α → m β)
    (l : List α) : ∀ {g h : List β → γ}, (∀ found, found.length = l.length → g found = h found) →
      g <$> l.mapM f = h <$> l.mapM f := by
  induction l with
  | nil =>
    intro g h hgh
    rw [List.mapM_nil, map_pure, map_pure, hgh [] rfl]
  | cons a l ih =>
    intro g h hgh
    rw [List.mapM_cons, map_bind, map_bind]
    refine bind_congr fun b ↦ ?_
    have hrest := ih fun found hfound ↦ hgh (b :: found) (by simp [hfound])
    simpa only [bind_pure_comp, Functor.map_map] using hrest

/-- **A program reads back from its project**, in every way of finding the files of costumes: its
extensions, the targets in order with their names, kinds and blocks, and their declarations, which
are put in order. -/
theorem toProgram_ofProgram {m : Type → Type} [Monad m] [LawfulMonad m]
    (fetch : Option (Costume.FileReader m)) {program : Program} (h : program.IsPortable) :
    (fun project ↦ (toProgram project.document project.files).map Program.bare) <$>
        ofProgram fetch program =
      (fun _ ↦ .ok program.listed) <$> ofProgram fetch program := by
  unfold ofProgram
  rw [map_bind, map_bind]
  simp only [map_pure, bind_pure_comp]
  refine map_mapM_congr _ _ fun found hfound ↦ ?_
  exact toProgram_documentOf h (by rw [List.length_map, hfound]) _

/-- A stage that declares two variables out of order, and a sprite with a covered menu, a sub-chain
and a procedure with an argument. -/
def sampleProgram : Program where
  stage := {
    kind := .stage
    name := "Stage"
    vars := [⟨"v2", "speed", "3"⟩, ⟨"v1", "score", "0"⟩]
    broadcasts := [⟨"b1", "go"⟩] }
  sprites := [{
    kind := .sprite
    name := "Cat"
    broadcasts := [⟨"b2", "lost"⟩]
    blocks := .ofList [
      ("d", { opcode := Opcode.definition, place := some ⟨64, -9007199254740992⟩, next := some "g",
              inputs := .ofList [("custom_block", .shadow "p")] }),
      ("p", { opcode := Opcode.prototype, parent := some "d", shadow := true,
              procedure := some ⟨"jump %s", ["a"], ["how \"high\""], true⟩ }),
      ("g", { opcode := "motion_goto", parent := some "d",
              inputs := .ofList [("TO", .covered "x" (.shadow "m"))] }),
      ("x", { opcode := "data_variable", parent := some "g",
              fields := .ofList [("VARIABLE", ⟨"score", some "v1"⟩)] }),
      ("m", { opcode := "motion_goto_menu", parent := some "g", shadow := true,
              fields := .ofList [("TO", ⟨"_mouse_", none⟩)] })] }]
  extensions := ["pen"]

/-- A program with a computed input, fields and a mutation comes back through its document. -/
theorem toProgram_ofProgram_sample : sampleProgram.IsPortable ∧
    (toProgram (Id.run (ofProgram none sampleProgram)).document
      (Id.run (ofProgram none sampleProgram)).files).map Program.bare =
        .ok sampleProgram.listed := by
  have h : sampleProgram.IsPortable := by decide +kernel
  exact ⟨h, toProgram_ofProgram (m := Id) none h⟩

end Project

end BlockScript

import BlockScript.Compile
import BlockScript.Proofs.Binding
import BlockScript.Proofs.Walking

/-!
# Targets of one-line texts

Everything that is made of the lines of a target stays on one line: the names, constants and
signatures of a target are parts of its lines, numbers, or texts of the catalog. `Block.IsInline`
and `Target.IsInline` say so of all texts that blocks and targets show. Every operation on drafts
keeps this, given texts of one line (`Draft.IsInline`), and so do the lines of a target
(`Script.isInline_of_draft`), if the catalog has it. So every target of a program is of that kind
(`Compile.isInline_of_ofOutline`).
-/

namespace BlockScript

/-! ### Blocks and targets -/

/-- All texts of a block stay on one line. -/
structure Block.IsInline (b : Block) : Prop where
  opcode : Text.IsTidy b.opcode
  inputs : ∀ name slot, b.inputs.find? name = some slot → slot.IsInline
  fields : ∀ name field, b.fields.find? name = some field → Text.IsInline field.text
  procedure : ∀ p ∈ b.procedure, Text.IsTidy p.signature

/-- All texts of the target that a listing can show stay on one line. -/
structure Target.IsInline (t : Target) : Prop where
  blocks : ∀ id b, t.blocks.find? id = some b → Text.IsTidy id ∧ b.IsInline
  vars : ∀ v ∈ t.vars, Text.IsInline v.name ∧ Text.IsInline v.value
  lists : ∀ s ∈ t.lists, Text.IsInline s.name
  broadcasts : ∀ s ∈ t.broadcasts, Text.IsInline s.name

/-- All names and initial values in the tables stay on one line. -/
def SymbolTables.IsInline (tables : SymbolTables) : Prop :=
  ∀ kind, ∀ entry ∈ tables.get kind, Text.IsTidy entry.name ∧ Text.IsInline entry.value

/-- All texts of a draft that a listing can show stay on one line. -/
structure Draft.IsInline (d : Draft) : Prop where
  blocks : ∀ id b, d.blocks.find? id = some b → Text.IsTidy id ∧ b.IsInline
  own : d.symbols.own.IsInline
  inherited : ∀ tables ∈ d.symbols.inherited, tables.IsInline

/-- A text of word characters can stand at the end of a line. -/
theorem Text.isTidy_of_word {s : String} (h : ∀ c ∈ s.toList, BlockScript.isWordChar c = true) :
    IsTidy s :=
  (isInline_of_isWord h).isTidy fun c hc ↦
    not_isWhite_of_isWordChar (h c (List.mem_of_getLast? hc))

/-- A digit to base thirty-six is a word character. -/
theorem isWordChar_base36Digit (n : Nat) (h : n < 36) : isWordChar (base36Digit n) = true := by
  revert n
  decide

/-- The digits of a number to base thirty-six are word characters. -/
theorem isWordChar_base36Onto {bound n : Nat} {tail : List Char}
    (h : ∀ c ∈ tail, isWordChar c = true) : ∀ c ∈ base36Onto bound n tail, isWordChar c = true := by
  induction bound generalizing n tail with
  | zero => exact h
  | succ bound ih =>
    rw [base36Onto]
    split
    · next hn => exact List.forall_mem_cons.2 ⟨isWordChar_base36Digit n hn, h⟩
    · exact ih (List.forall_mem_cons.2 ⟨isWordChar_base36Digit _ (Nat.mod_lt _ (by decide)), h⟩)

/-- A block identifier can stand at the end of a line. -/
theorem isTidy_blockId (n : Nat) : Text.IsTidy (blockId n) := by
  refine Text.isTidy_of_word fun c hc ↦ ?_
  rw [blockId, String.toList_append, List.mem_append, base36, String.toList_ofList] at hc
  rcases hc with hc | hc
  · exact List.all_eq_true.1 (by decide : ("blk" ++ "_").toList.all isWordChar = true) c hc
  · exact isWordChar_base36Onto (by simp) c hc

/-! ### Drafts -/

namespace Draft.IsInline

variable {d e : Draft}

/-- Blocks and symbols stay as they are. -/
theorem of_eq (h : d.IsInline) (hblocks : e.blocks = d.blocks) (hsymbols : e.symbols = d.symbols) :
    e.IsInline := by
  constructor
  · rw [hblocks]
    exact h.blocks
  · rw [hsymbols]
    exact h.own
  · rw [hsymbols]
    exact h.inherited

/-- Steps that leave blocks and symbols alone keep all texts on one line. -/
theorem of_quiet (h : d.IsInline) (hquiet : d.Quiet e) : e.IsInline :=
  h.of_eq hquiet.blocks hquiet.symbols

/-- A new block with a tidy operation code keeps all texts on one line. -/
theorem create (h : d.IsInline) {opcode : String} (hopcode : Text.IsTidy opcode) (role : Role) :
    (d.create opcode role).2.IsInline := by
  have hblock : (d.newBlock opcode role).IsInline := by
    have hplain : ∀ b : Block, b.opcode = opcode → b.inputs = ∅ → b.fields = ∅ →
        b.procedure = none → b.IsInline := by
      rintro b rfl hinputs hfields hprocedure
      exact ⟨hopcode, by simp [hinputs], by simp [hfields], by simp [hprocedure]⟩
    cases role <;> exact hplain _ rfl rfl rfl rfl
  refine { h with blocks := fun id b hfind ↦ ?_ }
  have hinsert : (d.blocks.insert d.nextId (d.newBlock opcode role)).find? id = some b := hfind
  rw [Dict.find?_insert] at hinsert
  split at hinsert
  · next heq =>
    obtain rfl := Option.some.inj hinsert
    exact ⟨heq ▸ isTidy_blockId _, hblock⟩
  · exact h.blocks id b hinsert

/-- A change that keeps the texts of each block on one line keeps those of the draft. -/
theorem update (h : d.IsInline) (id : BlockId) {f : Block → Block}
    (hf : ∀ b, b.IsInline → (f b).IsInline) : (d.update id f).IsInline := by
  refine { h with blocks := fun other b hfind ↦ ?_ }
  have hmodify : (d.blocks.modify id f).find? other = some b := hfind
  rw [Dict.find?_modify] at hmodify
  split at hmodify
  · obtain ⟨old, hold, rfl⟩ := Option.map_eq_some_iff.1 hmodify
    exact ⟨(h.blocks other old hold).1, hf old (h.blocks other old hold).2⟩
  · exact h.blocks other b hmodify

/-- A slot of one line in place of another keeps all texts on one line. -/
theorem setInput (h : d.IsInline) (id : BlockId) (name : String) {slot : Slot}
    (hslot : slot.IsInline) : (d.setInput id name slot).IsInline := by
  refine h.update id fun b hb ↦ { hb with inputs := fun other old hfind ↦ ?_ }
  rw [Dict.find?_insert] at hfind
  split at hfind
  · obtain rfl := Option.some.inj hfind
    exact hslot
  · exact hb.inputs other old hfind

/-- A field of one line in place of another keeps all texts on one line. -/
theorem setField (h : d.IsInline) (id : BlockId) (name : String) {field : Field}
    (hfield : Text.IsInline field.text) : (d.setField id name field).IsInline := by
  refine h.update id fun b hb ↦ { hb with fields := fun other old hfind ↦ ?_ }
  rw [Dict.find?_insert] at hfind
  split at hfind
  · obtain rfl := Option.some.inj hfind
    exact hfield
  · exact hb.fields other old hfind

/-- A parent is no text of the draft. -/
theorem setParent (h : d.IsInline) (id parent : BlockId) : (d.setParent id parent).IsInline :=
  h.update id fun _ hb ↦ { hb with }

/-- A tidy signature keeps all texts on one line. -/
theorem setProcedure (h : d.IsInline) (id : BlockId) {signature : String}
    (hsignature : Text.IsTidy signature) : (d.setProcedure id signature).IsInline := by
  refine h.update id fun _ hb ↦ { hb with procedure := fun p hp ↦ ?_ }
  obtain rfl := Option.some.inj hp
  exact hsignature

/-- A link between blocks is no text of the draft. -/
theorem link (h : d.IsInline) (first second : BlockId) : (d.link first second).IsInline := by
  have hnext : (d.update first fun b ↦ { b with next := some second }).IsInline :=
    h.update first fun _ hb ↦ { hb with }
  exact hnext.setParent second first

/-- The symbols of such a draft have tidy names. -/
theorem lookup? (h : d.IsInline) {kind : SymbolKind} {name : String} {symbol : Symbol}
    (hsymbol : d.symbols.lookup? kind name = some symbol) : Text.IsTidy symbol.name := by
  unfold Symbols.lookup? at hsymbol
  obtain ⟨entry, hentry, rfl⟩ := Option.map_eq_some_iff.1 hsymbol
  obtain ⟨tables, htables, hfind⟩ := List.exists_of_findSome?_eq_some hentry
  have hinline : tables.IsInline := by
    have hmem : tables ∈ d.symbols.own :: d.symbols.inherited := by
      split at htables
      · exact htables
      · exact List.mem_cons.2 (.inl (List.mem_singleton.1 htables))
    rcases List.mem_cons.1 hmem with rfl | hmem
    · exact h.own
    · exact h.inherited tables hmem
  exact (hinline kind entry (List.mem_of_find?_eq_some hfind)).1

/-- A symbol asked for by a tidy name gets a tidy name, and the draft keeps its texts on one line.
-/
theorem intern (h : d.IsInline) (kind : SymbolKind) {name initial : String}
    (hname : Text.IsTidy name) (hinitial : Text.IsInline initial) :
    Text.IsTidy (d.intern kind name initial).1.name ∧ (d.intern kind name initial).2.IsInline := by
  unfold Draft.intern Symbols.intern
  cases hlookup : d.symbols.lookup? kind name with
  | some known => exact ⟨h.lookup? hlookup, { h with }⟩
  | none =>
    refine ⟨hname, { h with own := fun other entry hentry ↦ ?_ }⟩
    have hmem : entry ∈ (d.symbols.own.append
        ⟨(Symbols.newId kind name d.ids).1, name, Text.orElse initial "0"⟩ kind).get other := hentry
    rw [SymbolTables.get_append] at hmem
    split at hmem
    · rcases List.mem_append.1 hmem with hmem | hmem
      · exact h.own other entry hmem
      · obtain rfl := List.mem_singleton.1 hmem
        exact ⟨hname, hinitial.orElse (by decide)⟩
    · exact h.own other entry hmem

/-- The field for a text of one line stays on one line, a declared symbol included. -/
theorem fieldFor (h : d.IsInline) {symbols : Option SymbolKind} {text fallback : String}
    (htext : Text.IsInline text) (hfallback : symbols.isSome = true → Text.IsTidy fallback) :
    Text.IsInline (d.fieldFor symbols text fallback).1.text ∧
      (d.fieldFor symbols text fallback).2.IsInline := by
  cases symbols with
  | none => exact ⟨htext, h⟩
  | some kind =>
    obtain ⟨hname, hinterned⟩ := h.intern kind (Text.isTidy_nameOr htext (hfallback rfl))
      (by decide : Text.IsInline "")
    exact ⟨hname.inline, hinterned⟩

/-- A field set from a text of one line keeps all texts on one line. -/
theorem setText (h : d.IsInline) (block : BlockId) (name : String) {symbols : Option SymbolKind}
    {text fallback : String} (htext : Text.IsInline text)
    (hfallback : symbols.isSome = true → Text.IsTidy fallback) :
    (d.setText block name symbols text fallback).IsInline := by
  obtain ⟨hfield, hbound⟩ := h.fieldFor htext hfallback
  exact hbound.setField block name hfield

/-- Adding a block to the open script is no text of the draft. -/
theorem append (h : d.IsInline) (id : BlockId) : (d.append id).IsInline := by
  have hmoved : ∀ (frames : List Frame) (script : Option BlockId),
      Draft.IsInline { d with frames, script } := fun _ _ ↦ h.of_eq rfl rfl
  obtain heq | ⟨frames, script, ⟨last, heq⟩ | ⟨frame, -, input, heq⟩⟩ := d.append_cases id <;>
    rw [heq]
  · exact h
  · exact (hmoved frames script).link last id
  · have hset := (hmoved frames script).setInput frame.block input (Slot.isInline_block id)
    exact hset.setParent id _

end Draft.IsInline

/-! ### Lines -/

/-- The operation codes a build can give to a block are tidy. -/
theorem Catalog.isTidy_of_mem_opcodes {catalog : Catalog} (hcat : catalog.IsInline)
    {target : TargetKind} {opcode : String} (h : opcode ∈ catalog.opcodes target) :
    Text.IsTidy opcode := by
  rcases List.mem_append.1 h with h | h
  · have hgrammar : ∀ opcode ∈ Opcode.grammar, Text.IsTidy opcode := by decide
    exact hgrammar opcode h
  · obtain ⟨c, hc, hop⟩ := List.mem_flatMap.1 h
    have hinline := hcat c (List.mem_of_mem_filter hc)
    rcases List.mem_cons.1 hop with rfl | hop
    · exact hinline.opcode
    · obtain ⟨spec, hspec, hmenu⟩ := List.mem_filterMap.1 hop
      exact (hinline.inputs spec hspec).menu opcode hmenu

namespace Draft.Property

/-- The texts of the draft stay on one line. -/
def oneLine : Property :=
  quiet Draft.IsInline (fun _ ↦ True) True fun hd h ↦ hd.of_quiet h

/-- With a catalog of one-line texts, every operation keeps the texts of a draft on one line. -/
theorem oneLine_isKept {catalog : Catalog} (hcat : catalog.IsInline) (target : TargetKind) :
    oneLine.IsKeptByLines catalog target where
  inline _ := hcat
  create role hop h :=
    ⟨trivial, Draft.IsInline.create h (Catalog.isTidy_of_mem_opcodes hcat hop) role⟩
  setText _ _ _ htext hfallback h :=
    Draft.IsInline.setText h _ _ (htext trivial) (hfallback trivial)
  setInput name _ _ hslot h := Draft.IsInline.setInput h _ name (hslot trivial)
  setParent parent _ h := Draft.IsInline.setParent h _ parent
  move _ _ h := Draft.IsInline.of_eq h rfl rfl
  append id h := Draft.IsInline.append h id
  branch id h := Draft.IsInline.update h id fun _ hb ↦
    { hb with opcode := (by decide : Text.IsTidy Opcode.ifElse) }
  intern kind _ _ hname hinitial h :=
    have hinterned := Draft.IsInline.intern h kind (hname trivial) (hinitial trivial)
    ⟨fun _ ↦ hinterned.1, hinterned.2⟩
  setProcedure id _ hsignature h := Draft.IsInline.setProcedure h id (hsignature trivial)
  countCommand h := Draft.IsInline.of_eq h rfl rfl

end Draft.Property

/-! ### Targets -/

/-- A draft built of lines has no text of two lines if the catalog and the lines have none. -/
theorem Script.isInline_of_draft {catalog : Catalog} (hcat : catalog.IsInline) {kind : TargetKind}
    {sources : List SourceLine} (hsources : ∀ source ∈ sources, Text.IsInline source.text)
    {start d : Draft} (hstart : start.IsInline) (h : draft catalog kind sources start = .ok d) :
    d.IsInline := by
  have hdrafts : Draft.Property.oneLine.bond.drafts [] start start := ⟨rfl, hstart⟩
  have hends := Bond.lines_holds (Draft.Property.oneLine_isKept hcat kind).bond
    (fun source hsource _ ↦ hsources source hsource) hdrafts
  have hleads := Draft.Property.leadsTo hends
  rw [draft_eq] at h
  unfold Build.LeadsTo at hleads
  generalize run (Build.lines catalog kind sources) start = outcome at h hleads
  obtain ⟨error | a, e⟩ := outcome
  · cases h
  · obtain rfl := Except.ok.inj h
    exact (hleads.1 a rfl).2

/-- A finished target has the texts of its draft. -/
theorem Draft.IsInline.finish {d : Draft} (h : d.IsInline) (kind : TargetKind) (name : String) :
    (d.finish kind name).target.IsInline where
  blocks := h.blocks
  vars v hv := by
    obtain ⟨entry, hentry, rfl⟩ := List.mem_map.1 hv
    obtain ⟨hname, hvalue⟩ := h.own .vars entry hentry
    exact ⟨hname.inline, hvalue⟩
  lists s hs := by
    obtain ⟨entry, hentry, rfl⟩ := List.mem_map.1 hs
    exact (h.own .lists entry hentry).1.inline
  broadcasts s hs := by
    obtain ⟨entry, hentry, rfl⟩ := List.mem_map.1 hs
    exact (h.own .broadcasts entry hentry).1.inline

namespace Compile

variable {catalog : Catalog}

/-- A build starts with no text but the names of the stage. -/
theorem isInline_start {ids : IdSource} {outer : List SymbolTables}
    (houter : ∀ tables ∈ outer, tables.IsInline) :
    Draft.IsInline { ids, symbols := ⟨{}, outer⟩ } where
  blocks id b h := by simp at h
  own kind := by cases kind <;> exact List.forall_mem_nil _
  inherited := houter

/-- All sprites of a program are built without a text of two lines. -/
theorem isInline_of_sprites (hcat : catalog.IsInline) {stage : Symbols} {ids : IdSource}
    {sections : List SpriteSection} {built : List (SpriteSection × TargetBuild)}
    (hstage : ∀ tables ∈ stage.within.inherited, tables.IsInline)
    (hsections : ∀ s ∈ sections, ∀ source ∈ s.lines, Text.IsInline source.text)
    (h : sprites catalog stage ids sections = .ok built) :
    ∀ b ∈ built, b.2.target.IsInline := by
  induction sections generalizing ids built with
  | nil =>
    obtain rfl := Except.ok.inj h
    exact List.forall_mem_nil _
  | cons s rest ih =>
    obtain ⟨d, others, hdraft, hothers, rfl⟩ := sprites_cons_eq_ok h
    obtain ⟨hs, hrest⟩ := List.forall_mem_cons.1 hsections
    have hd := Script.isInline_of_draft hcat hs (isInline_start hstage) hdraft
    exact List.forall_mem_cons.2 ⟨hd.finish .sprite s.name, ih hrest hothers⟩

/-- Programs made of lines have no texts with line feeds. -/
theorem isInline_of_ofOutline (hcat : catalog.IsInline) {outline : Outline}
    (hstage : ∀ source ∈ outline.stage, Text.IsInline source.text)
    (hsprites : ∀ s ∈ outline.sprites, ∀ source ∈ s.lines, Text.IsInline source.text)
    {compiled : Compiled} (h : ofOutline catalog outline = .ok compiled) :
    ∀ t ∈ compiled.program.targets, t.IsInline := by
  obtain ⟨d, built, hdraft, hbuilt, hspriteTargets, hstageTarget⟩ := ofOutline_eq_ok h
  have hd : d.IsInline :=
    Script.isInline_of_draft hcat hstage (isInline_start (List.forall_mem_nil _)) hdraft
  have hall := isInline_of_sprites hcat (List.forall_mem_cons.2 ⟨hd.own, hd.inherited⟩) hsprites
    hbuilt
  refine List.forall_mem_cons.2 ⟨?_, fun t ht ↦ ?_⟩
  · rw [hstageTarget]
    refine { hd.finish .stage "Stage" with broadcasts := fun s hs ↦ ?_ }
    rcases mem_of_mem_foldl_mergeBroadcasts hs with hs | ⟨b, hb, hs⟩
    · exact (hd.finish .stage "Stage").broadcasts s hs
    · obtain ⟨x, hx, rfl⟩ := List.mem_map.1 hb
      exact (hall x hx).broadcasts s hs
  · rw [hspriteTargets] at ht
    obtain ⟨b, hb, rfl⟩ := List.mem_map.1 ht
    exact { hall b hb with broadcasts := List.forall_mem_nil _ }

end Compile

end BlockScript

import BlockScript.Proofs.AppendOnly
import BlockScript.Proofs.Fillings
import BlockScript.Proofs.Walking

/-!
# Defaults and the warnings for them

An accepted line makes a block for its command and for each call in it, and nothing that follows on
the line changes what these blocks hold (`Build.line_sets`). So each input of the line is an input
of a new block, which shows what is written for it or the default, and the warnings of the line are
those for the remarks on its inputs (`Draft.isAccounted_of_line`).

A text that is missing and one that is of no use give way to the default, and a warning says so.
White space gives way to it in silence (`Filling.IsAccounted.blank`): it is not missing, since a
text is measured with the white space around it, and it is not checked, since nothing is left
without. Only inputs for numbers do not take the default then. They read white space as zero, in
silence as well.
-/

namespace BlockScript

namespace Draft

/-! ### Blocks that stay as they are -/

/-- The blocks with these identifiers keep their operation codes, inputs and fields, and no symbol
is lost. -/
structure Preserves (ids : List BlockId) (d e : Draft) : Prop where
  blocks : ∀ id ∈ ids, ∀ b, d.blocks.find? id = some b → ∃ b', e.blocks.find? id = some b' ∧
    b'.opcode = b.opcode ∧ b'.inputs = b.inputs ∧ b'.fields = b.fields
  symbols : d.symbols.Le e.symbols

namespace Preserves

variable {ids : List BlockId} {d e f : Draft}

theorem refl (d : Draft) : Preserves ids d d :=
  ⟨fun _ _ b hb ↦ ⟨b, hb, rfl, rfl, rfl⟩, Symbols.Le.refl _⟩

theorem of_eq (h : Preserves ids d e) (hblocks : f.blocks = e.blocks)
    (hsymbols : e.symbols.Le f.symbols) : Preserves ids d f :=
  ⟨by simpa only [hblocks] using h.blocks, h.symbols.trans hsymbols⟩

/-- A change of how a block is tied to others. -/
theorem update (h : Preserves ids d e) (other : BlockId) {change : Block → Block}
    (hchange : ∀ b, (change b).opcode = b.opcode ∧ (change b).inputs = b.inputs ∧
      (change b).fields = b.fields) : Preserves ids d (e.update other change) where
  blocks id hid b hb := by
    obtain ⟨b', hb', hopcode, hinputs, hfields⟩ := h.blocks id hid b hb
    have hsame := hchange b'
    rw [find?_update]
    split
    · exact ⟨change b', by rw [hb']; rfl, hsame.1.trans hopcode, hsame.2.1.trans hinputs,
        hsame.2.2.trans hfields⟩
    · exact ⟨b', hb', hopcode, hinputs, hfields⟩
  symbols := h.symbols

/-- A change of another block. -/
theorem updateOther (h : Preserves ids d e) {other : BlockId} (hother : other ∉ ids)
    (change : Block → Block) : Preserves ids d (e.update other change) where
  blocks id hid b hb := by
    have hne : id ≠ other := by
      rintro rfl
      exact hother hid
    rw [find?_update_of_ne e change hne]
    exact h.blocks id hid b hb
  symbols := h.symbols

theorem setParent (h : Preserves ids d e) (other parent : BlockId) :
    Preserves ids d (e.setParent other parent) :=
  h.update other fun _ ↦ ⟨rfl, rfl, rfl⟩

theorem link (h : Preserves ids d e) (first second : BlockId) :
    Preserves ids d (e.link first second) := by
  have hfirst : Preserves ids d (e.update first fun b ↦ { b with next := some second }) :=
    h.update first fun _ ↦ ⟨rfl, rfl, rfl⟩
  exact hfirst.setParent second first

/-- Only an open nesting block gets an input when a block is appended. -/
theorem append (h : Preserves ids d e) (hframes : ∀ frame ∈ e.frames, frame.block ∉ ids)
    (other : BlockId) : Preserves ids d (e.append other) := by
  have hmoved : ∀ (frames : List Frame) (script : Option BlockId),
      Preserves ids d { e with frames, script } := fun _ _ ↦ h.of_eq rfl (Symbols.Le.refl _)
  obtain heq | ⟨frames, script, ⟨last, heq⟩ | ⟨frame, hmem, input, heq⟩⟩ := e.append_cases other <;>
    rw [heq]
  · exact h
  · exact (hmoved frames script).link last other
  · exact ((hmoved frames script).updateOther (hframes frame hmem) _).setParent ..

end Preserves

/-- The open nesting blocks were there before a tree was planted. -/
theorem Plants.frame_notMem {d m : Draft} {t : Chain BlockId} {s : Setting} (hd : d.Poised)
    (h : d.Plants m t s) : ∀ frame ∈ m.frames, frame.block ∉ t.tags := by
  intro frame hframe hin
  have hframes : m.frames = d.frames := congrArg Prod.fst h.desk
  rw [hframes] at hframe
  obtain ⟨b, hb, -⟩ := hd.free _ (block_mem_ends hframe)
  rw [h.grows.new _ hin] at hb
  cases hb

/-- A draft becomes another one in which a tree of new blocks stands. -/
def Sets (d : Draft) (tree : Tree) (_ : Unit) (e : Draft) : Prop :=
  ∃ (t : Chain BlockId) (m : Draft), t.erase = tree ∧ (∀ id ∈ t.tags, d.blocks.find? id = none) ∧
    (∀ p ∈ t.parts, p.Held m.graph) ∧ Preserves t.tags m e

end Draft

namespace Build

open Draft

theorem LeadsTo.of_follows {α β : Type} {work : Build α} {d : Draft}
    {result : Except SourceError β} {post : β → α → Draft → Prop}
    (h : Follows work d result post) :
    LeadsTo (fun a e ↦ ∃ b, result = .ok b ∧ post b a e) (fun _ ↦ True) work d := by
  unfold LeadsTo Script.run
  cases h with
  | fails run =>
    rw [run]
    exact ⟨nofun, fun _ _ ↦ trivial⟩
  | @yields a b e _ run fits =>
    rw [run]
    refine ⟨fun a' ha ↦ ?_, nofun⟩
    obtain rfl := Except.ok.inj ha
    exact ⟨b, rfl, fits⟩

section

variable {embed : Embed} {read : Reading.Reader} (hr : Reads embed read) {d : Draft} {c : Command}
include hr

/-- The block of a statement is made with those of the expressions in it. -/
theorem statement_sets (hd : d.Poised) (hnd : (c.inputs.map (·.name)).Nodup) (line : Nat)
    (tokens raw : List String) :
    Follows (statement embed line c tokens raw) d
      (Reading.commandBlock read c (.ofLine tokens raw)) d.Sets := by
  -- The tree is planted when the slots are filled, and counting the command comes last.
  have hdone : ∀ {base m : Draft} {t : Chain BlockId} {s : Setting} {e : Draft} {tree : Tree},
      base.Plants m t s → Preserves t.tags m e → t.erase = tree → base.blocks = d.blocks →
      d.Sets tree ⟨⟩ e.countCommand :=
    fun {_ m t _ _ _} hplant hpreserves htree hbase ↦
      ⟨t, m, htree, fun id hid ↦ hbase ▸ hplant.grows.new id hid, hplant.held.part,
        hpreserves.of_eq rfl (Symbols.Le.refl _)⟩
  unfold statement Reading.commandBlock
  dsimp only
  by_cases hhat : c.kind = .hat
  · simp only [hhat, beq_self_eq_true, if_true]
    refine Follows.create_bind ?_
    refine (bindSlots_follows hr line c _ (plants_entry hd.fresh c.opcode) hnd).bind ?_
    rintro more ⟨⟩ m ⟨t, rfl, -, hplant⟩
    refine Follows.modify_bind (Follows.modify ?_)
    exact hdone hplant ((Preserves.refl m).of_eq rfl (Symbols.Le.refl _)) rfl rfl
  · simp only [beq_eq_false_iff_ne.2 hhat, Bool.false_eq_true, if_false]
    refine Follows.create_bind ?_
    have hnew := Draft.Plants.create hd.fresh c.opcode .statement (by simp)
    refine (bindSlots_follows hr line c _ hnew hnd).bind ?_
    rintro more ⟨⟩ m ⟨t, rfl, -, hplant⟩
    refine Follows.modify_bind ?_
    have happended := (Preserves.refl m).append (hplant.frame_notMem hd) d.nextId
    cases hkind : c.kind with
    | hat => exact absurd hkind hhat
    | nesting =>
      refine Follows.modify_bind (Follows.modify ?_)
      exact hdone hplant (happended.of_eq rfl (Symbols.Le.refl _)) rfl rfl
    | call =>
      unfold signature
      simp only [bind_assoc, pure_bind]
      refine Follows.modifyGet_bind (Follows.modify_bind (Follows.modify ?_))
      refine hdone hplant ?_ rfl rfl
      have hasked := happended.of_eq (f := ((m.append d.nextId).intern .procedures
        (Text.nameOr (Text.join " " tokens) SymbolKind.procedures.fallbackName) "").2) rfl
        (Symbols.le_intern _ _ _ _ _)
      exact hasked.update d.nextId fun _ ↦ ⟨rfl, rfl, rfl⟩
    | _ => exact Follows.modify (hdone hplant happended rfl rfl)

/-- A command whose block has slots makes that block. -/
theorem command_sets (hd : d.Poised) (hnd : (c.inputs.map (·.name)).Nodup)
    (hkind : c.kind = .hat ∨ c.kind.isStatement = true) (target : TargetKind) (line : Nat)
    (tokens raw : List String) :
    LeadsTo (fun a e ↦ ∃ tree, Reading.commandBlock read c (.ofLine tokens raw) = .ok tree ∧
      d.Sets tree a e) (fun _ ↦ True) (command embed target line c tokens raw) d := by
  have hopened : LeadsTo (fun a e ↦ ∃ tree,
      Reading.commandBlock read c (.ofLine tokens raw) = .ok tree ∧ d.Sets tree a e) (fun _ ↦ True)
      (statement embed line c tokens raw) d.ensureScript := by
    obtain ⟨hpoised, -, hspares, -⟩ := @ensureScript_cases d True hd
    refine (LeadsTo.of_follows (statement_sets hr hpoised hnd line tokens raw)).imp ?_
      fun _ _ ↦ trivial
    rintro a e ⟨tree, htree, t, m, herase, hnew, hheld, hpreserves⟩
    -- a block that is new after the script was opened was new before
    refine ⟨tree, htree, t, m, herase, fun id hid ↦ ?_, hheld, hpreserves⟩
    cases hb : d.blocks.find? id with
    | none => rfl
    | some b => exact absurd ((hspares id b hb).symm.trans (hnew id hid)) nofun
  unfold command
  cases hc : c.kind <;> simp only [hc, CommandKind.isStatement, reduceCtorEq, or_self,
    Bool.false_eq_true] at hkind <;> dsimp only
  all_goals cases c.isAvailableOn target
  case hat.false | stack.false | nesting.false | call.false => exact .fail trivial
  case hat.true =>
    refine LeadsTo.get_bind ?_
    cases !d.frames.isEmpty with
    | true => exact .fail trivial
    | false => exact .of_follows (statement_sets hr hd hnd line tokens raw)
  case stack.true | nesting.true | call.true => exact LeadsTo.get_bind (LeadsTo.modify_bind hopened)

end

/-- A line that gives such a command makes its block. -/
theorem line_sets {catalog : Catalog} (hcat : catalog.HasDistinctSlots) {target : TargetKind}
    {d : Draft} (hd : d.Poised) {source : SourceLine} {c : Command} {raw : List String}
    (hgives : source.Gives catalog c raw) (hkind : c.kind = .hat ∨ c.kind.isStatement = true) :
    LeadsTo (fun a e ↦ ∃ tree, Reading.commandBlock (source.reader catalog target) c
        (.ofLine (raw.map Token.unquote) raw) = .ok tree ∧ d.Sets tree a e) (fun _ ↦ True)
      (line catalog target source) d := by
  obtain ⟨first, htokens, hc⟩ := hgives
  unfold SourceLine.tokens at htokens
  unfold line SourceLine.reader
  generalize Text.trim source.text = text at htokens ⊢
  dsimp only at htokens ⊢
  split at htokens
  · cases htokens
  · next hidle =>
    rw [if_neg hidle, htokens]
    dsimp only
    rw [hc]
    exact command_sets (expression_reads hcat.inputs target source.line _) hd
      (List.nodup_append.1 (hcat c (Catalog.mem_values_of_resolve? hc))).1 hkind target source.line
        _ raw

end Build

/-! ### What inputs show -/

namespace Slot

variable {slot : Slot}

theorem eq_literal_of_shows {value : Literal} (h : slot.Shows (some value) .nil .nil) :
    slot = .literal value := by
  obtain ⟨hconstant, hvalue, hshadow⟩ := h
  cases slot with
  | literal => rw [Option.some.inj hconstant]
  | shadow => cases hshadow
  | block => cases hvalue
  | covered => cases hvalue

theorem eq_shadow_of_shows {id : BlockId} {node : Node} {slots : Slots BlockId}
    {rest : Chain BlockId} (h : slot.Shows none .nil (.cons id node slots rest)) :
    slot = .shadow id := by
  obtain ⟨hconstant, hvalue, hshadow⟩ := h
  cases slot with
  | literal => cases hconstant
  | shadow => rw [Option.some.inj hshadow]
  | block => cases hvalue
  | covered => cases hvalue

end Slot

theorem Node.find?_of_fieldDict? {symbols : Symbols} {opcode : String} {ft : FieldText}
    {fields : Dict Field}
    (h : ({ opcode, fields := [ft] } : Node).fieldDict? symbols = some fields) :
    ∃ field, ft.field? symbols = some field ∧ fields.find? ft.name = some field := by
  simp only [Node.fieldDict?, List.foldlM_cons, List.foldlM_nil, Node.putField, Option.bind_eq_bind,
    Option.pure_def, Option.bind_fun_some, Option.map_eq_some_iff] at h
  obtain ⟨field, hfield, rfl⟩ := h
  exact ⟨field, hfield, Dict.find?_insert_self _ _ _⟩

/-- What an input shows is this text: in the shadow block of its menu, if it has one, or else as a
constant. -/
def InputSpec.Shows (spec : InputSpec) (e : Draft) (slot : Slot) (text : String) : Prop :=
  match if spec.kind = .menu then spec.menuOpcode else none with
  | some opcode => ∃ id b field, slot = .shadow id ∧ e.blocks.find? id = some b ∧
      b.opcode = opcode ∧ b.fields.find? (spec.menuField.getD spec.name) = some field ∧
      (Reading.fieldFor (spec.menuField.getD spec.name) spec.symbols text
        (spec.default?.getD "item")).field? e.symbols = some field
  | none => slot = .literal (spec.kind.literal text)

namespace Filling

variable {f : Filling} {d e m : Draft}

/-- The content of an input shows its text. -/
theorem shows_of_content {slot : Slot} {c : Content BlockId} (herase : c.erase = f.content)
    (hslot : slot.Shows c.constant c.value c.shadow) {t : Chain BlockId}
    (hparts : c.shadow.parts ⊆ t.parts) (hheld : ∀ p ∈ t.parts, p.Held m.graph)
    (hpreserves : Draft.Preserves t.tags m e) : f.spec.Shows e slot f.shown := by
  obtain ⟨constant, value, shadow⟩ := c
  have hliteral : ∀ literal : Literal, f.content = { constant := some literal } →
      slot = .literal literal := by
    intro literal hcontent
    rw [hcontent] at herase
    obtain ⟨rfl, hvalue, hshadow⟩ := Content.mk.inj herase
    obtain rfl := Chain.erase_eq_nil.1 hvalue
    obtain rfl := Chain.erase_eq_nil.1 hshadow
    exact Slot.eq_literal_of_shows hslot
  unfold InputSpec.Shows
  by_cases hkind : f.spec.kind = .menu
  · have hshown : f.shown = (f.spec.menuText (Reading.inputText f.spec f.args)).1 := by
      rw [shown, InputSpec.check, if_pos hkind]
    rw [content, if_pos hkind, Reading.menuFallback] at herase hliteral
    rw [if_pos hkind, hshown]
    cases hopcode : f.spec.menuOpcode with
    | none =>
      rw [hopcode] at hliteral
      rw [hkind]
      exact hliteral _ rfl
    | some opcode =>
      rw [hopcode] at herase
      obtain ⟨rfl, hvalue, hshadow⟩ := Content.mk.inj herase
      obtain rfl := Chain.erase_eq_nil.1 hvalue
      cases shadow with
      | nil => cases hshadow
      | cons id node slots rest =>
        obtain ⟨-, rfl, -, -⟩ := Chain.cons.inj hshadow
        -- the text is in the field of the shadow block, which is a part of the tree itself
        have hmem := hparts List.mem_cons_self
        obtain ⟨b, hb, ⟨_, hsaid⟩, -⟩ := hheld _ hmem
        obtain ⟨field, hfield, hfind⟩ := Node.find?_of_fieldDict? hsaid.fields
        obtain ⟨b', hb', hop', -, hfields'⟩ := hpreserves.blocks id (t.tag_mem hmem) b hb
        exact ⟨id, b', field, Slot.eq_shadow_of_shows hslot, hb', hop'.trans hsaid.opcode,
          hfields' ▸ hfind, FieldText.field?_of_le hpreserves.symbols hfield⟩
  · rw [if_neg hkind]
    exact hliteral _ (if_neg hkind)

/-- What becomes of an input that has a default, when a line with some remarks is accepted. -/
structure IsAccounted (f : Filling) (d e : Draft) (told : List Remark) : Prop where
  /-- A new block has the input, and shows its text there. -/
  stands : ∃ id b slot, d.blocks.find? id = none ∧ e.blocks.find? id = some b ∧
    b.opcode = f.command.opcode ∧ b.inputs.find? f.spec.name = some slot ∧
    f.spec.Shows e slot f.shown
  /-- Nothing that is remarked on the input is left out. -/
  told : f.remarks ⊆ told
  /-- Where nothing is written the default is shown, and this is remarked on. -/
  missing : f.written = "" → f.shown = Text.trim f.spec.defaultText ∧
    f.remarks = [.defaultedInput f.command.name f.spec.name f.spec.defaultText]
  /-- Where what is written is of no use the default is shown, and this is remarked on. -/
  rejected : Text.trim f.written ≠ "" → f.spec.Rejects f.written = true →
    f.shown = f.spec.defaultText ∧ f.remarks = [f.spec.rejection f.command.name f.written]
  /-- What is of use is shown. -/
  taken : Text.trim f.written ≠ "" → f.spec.Rejects f.written = false →
    f.shown = f.spec.taken f.written ∧ f.remarks = []
  /-- Where white space is written the default or a zero is shown, and nothing is remarked. -/
  blank : f.written ≠ "" → Text.trim f.written = "" → f.shown = f.spec.blankText ∧ f.remarks = []

/-- The remarks on an input where something is written are those of its check. -/
theorem shown_of_written (h : f.written ≠ "") {result : String × Option Remark}
    (hcheck : f.spec.check f.command.name f.written = result) :
    f.shown = result.1 ∧ f.remarks = result.2.toList := by
  have hmissing : Remarks.missing f.command.name f.args f.spec = [] :=
    if_neg fun hempty ↦ h (String.isEmpty_iff.1 hempty)
  rw [shown, remarks, inputText_of_written h, hcheck, hmissing]
  exact ⟨rfl, rfl⟩

theorem shown_of_missing (hconstant : f.IsConstant) (hdefault : f.spec.HasFittingDefault)
    (h : f.written = "") : f.shown = Text.trim f.spec.defaultText ∧
      f.remarks = [.defaultedInput f.command.name f.spec.name f.spec.defaultText] := by
  obtain ⟨value, hvalue⟩ := Option.isSome_iff_exists.1 hconstant.default
  have hmissing : Remarks.missing f.command.name f.args f.spec =
      [.defaultedInput f.command.name f.spec.name f.spec.defaultText] := by
    have hempty : (Remarks.writtenText f.spec f.args).isEmpty = true := String.isEmpty_iff.2 h
    rw [Remarks.missing, if_pos hempty, InputSpec.defaultText, hvalue]
    rfl
  rw [shown, remarks, inputText_of_missing h, InputSpec.check_defaultText hdefault hconstant.kind,
    hmissing]
  exact ⟨rfl, rfl⟩

/-- What the block of a command holds for an input in it. -/
theorem stands_of_part {t : Chain BlockId} (hnew : ∀ id ∈ t.tags, d.blocks.find? id = none)
    (hheld : ∀ p ∈ t.parts, p.Held m.graph) (hpreserves : Draft.Preserves t.tags m e)
    {p : Part Unit} (hp : p ∈ t.erase.parts) (hop : p.node.opcode = f.command.opcode)
    (hentry : (f.spec.name, f.content) ∈ p.slots.entries) :
    ∃ id b slot, d.blocks.find? id = none ∧ e.blocks.find? id = some b ∧
      b.opcode = f.command.opcode ∧ b.inputs.find? f.spec.name = some slot ∧
      f.spec.Shows e slot f.shown := by
  -- the part with its tag, and the slot with the tags of what it holds
  rw [Chain.parts_erase] at hp
  obtain ⟨q, hq, rfl⟩ := List.mem_map.1 hp
  rw [Part.erase, Slots.entries_erase] at hentry
  obtain ⟨⟨input, c⟩, hc, heq⟩ := List.mem_map.1 hentry
  obtain ⟨rfl, herase⟩ := Prod.mk.inj heq
  obtain ⟨b, hb, ⟨_, hsaid⟩, hslots⟩ := hheld q hq
  obtain ⟨slot, hslot, hshows⟩ := hslots.entry hc
  obtain ⟨b', hb', hopcode, hinputs, -⟩ := hpreserves.blocks _ (t.tag_mem hq) b hb
  refine ⟨q.tag, b', slot, hnew _ (t.tag_mem hq), hb', (hopcode.trans hsaid.opcode).trans hop,
    hinputs ▸ hslot, ?_⟩
  exact shows_of_content herase hshows
    (List.Subset.trans (Slots.parts_subset_of_mem_entries hc).2 (Chain.parts_subset_of_mem hq))
    hheld hpreserves

end Filling

theorem Remarks.line_of_gives {catalog : Catalog} (target : TargetKind) {source : SourceLine}
    {c : Command} {raw : List String} (hgives : source.Gives catalog c raw)
    (hkind : c.kind = .hat ∨ c.kind.isStatement = true) :
    line catalog target source =
      commandBlock (expression catalog target (catalog.nestingBound (Text.trim source.text).length))
        c (.ofLine (raw.map Token.unquote) raw) := by
  obtain ⟨first, htokens, hc⟩ := hgives
  unfold line
  rw [htokens]
  dsimp only
  rw [hc]
  exact if_pos hkind

/-- **Defaults are remarked on, unless white space stands for them.** The warnings of an accepted
line are those for the remarks on it. Each input of its command and of the calls in it that has a
default is an input of a new block, and what this shows is the default with a remark where nothing
is written or what is written is of no use. -/
theorem Draft.isAccounted_of_line {target : TargetKind} {d e : Draft}
    (hd : Draft.Reached .builtin target d) {source : SourceLine}
    (hrun : Script.run (Build.line .builtin target source) d = (.ok ⟨⟩, e)) {c : Command}
    {raw : List String} (hgives : source.Gives .builtin c raw)
    (hkind : c.kind = .hat ∨ c.kind.isStatement = true) :
    d.Told source.line (Remarks.line .builtin target source) e ∧
      ∀ f, Fills .builtin target c (.ofLine (raw.map Token.unquote) raw) f → f.IsConstant →
        f.IsAccounted d e (Remarks.line .builtin target source) := by
  have hpoised := hd.poised Catalog.builtin_hasDistinctSlots
  have htold := (Build.line_tells .builtin target source d).1 ⟨⟩ (congrArg Prod.fst hrun)
  obtain ⟨tree, htree, t, m, rfl, hnew, hheld, hpreserves⟩ :=
    (Build.line_sets Catalog.builtin_hasDistinctSlots hpoised hgives hkind).1 ⟨⟩
      (congrArg Prod.fst hrun)
  rw [hrun] at htold hpreserves
  refine ⟨htold, fun f hf hconstant ↦ ?_⟩
  have ⟨_, _, hc⟩ := hgives
  obtain ⟨hcommand, hspec⟩ := hf.mem (Catalog.mem_values_of_resolve? hc)
  have hdefault := Catalog.builtin_hasFittingDefault hcommand hspec hconstant.kind hconstant.default
  -- the filling stands in a block of the tree that was read, and that block was made
  obtain ⟨⟨p, hp, hop, hentry⟩, hremarks⟩ := hf.exists_part hconstant
    (Catalog.builtin_hasPlainDefaults _ hcommand _ hspec) source.line htree
  rw [← Remarks.line_of_gives target hgives hkind] at hremarks
  have hwritten : Text.trim f.written ≠ "" → f.written ≠ "" := by
    intro htrim h
    exact htrim (by rw [h]; decide)
  exact {
    stands := Filling.stands_of_part hnew hheld hpreserves hp hop hentry
    told := hremarks
    missing := Filling.shown_of_missing hconstant hdefault
    rejected := fun htrim h ↦
      Filling.shown_of_written (hwritten htrim) (InputSpec.check_of_rejects hdefault htrim h)
    taken := fun htrim h ↦
      Filling.shown_of_written (hwritten htrim) (InputSpec.check_of_taken hconstant.kind htrim h)
    blank := fun h htrim ↦
      Filling.shown_of_written h (InputSpec.check_of_blank hdefault hconstant.kind htrim) }

theorem Script.run_of_fst_eq {α : Type} {work : Build α} {d : Draft} {result : Except SourceError α}
    (h : (run work d).1 = result) : run work d = (result, (run work d).2) := by
  rw [← h]

/-- A call with white space for one of its arguments and nothing for the other. -/
def blankLine : SourceLine := ⟨7, "say @join(\"  \", \"\")"⟩

/-- The statement of the line. -/
def sayCommand : Command where
  name := "say"
  opcode? := some "looks_say"
  inputs := [{ name := "MESSAGE", source := .rest 0, kind := .text, default? := some "Hello!" }]

/-- The command of the call. -/
def joinCommand : Command where
  name := "join"
  opcode? := some "operator_join"
  kind := .reporter
  inputs := [
    { name := "STRING1", source := .index 0, kind := .text, default? := some "apple " },
    { name := "STRING2", source := .index 1, kind := .text, default? := some "banana" }]

/-- An input of the call. -/
def joinFilling (spec : InputSpec) : Filling := ⟨joinCommand, .ofCall ["  ", ""], spec⟩

/-- Defaults take the place of both, and only one of them is remarked on. -/
theorem Draft.isAccounted_of_line_blank : ∃ e first second,
    joinCommand.inputs = [first, second] ∧
      Script.run (Build.line .builtin .sprite blankLine) {} = (.ok ⟨⟩, e) ∧
      e.warnings = [⟨7, .defaultedInput "join" "STRING2" "banana", none⟩] ∧
      (joinFilling first).shown = "apple " ∧ (joinFilling second).shown = "banana" ∧
      (joinFilling first).IsAccounted {} e (Remarks.line .builtin .sprite blankLine) ∧
      (joinFilling second).IsAccounted {} e (Remarks.line .builtin .sprite blankLine) := by
  obtain ⟨hok, hwarnings⟩ : (Script.run (Build.line .builtin .sprite blankLine) {}).1 = .ok ⟨⟩ ∧
      (Script.run (Build.line .builtin .sprite blankLine) {}).2.warnings =
        [⟨7, .defaultedInput "join" "STRING2" "banana", none⟩] := by
    decide +kernel
  have hrun : Script.run (Build.line .builtin .sprite blankLine) {} =
      (.ok ⟨⟩, (Script.run (Build.line .builtin .sprite blankLine) {}).2) :=
    Script.run_of_fst_eq hok
  have hgives : blankLine.Gives .builtin sayCommand ["@join(\"  \", \"\")"] :=
    ⟨"say", by decide +kernel, Catalog.builtin_resolve (c := sayCommand) (by decide)⟩
  have hall := Draft.isAccounted_of_line (.start {} {}) hrun hgives (.inr rfl)
  have hparse : Call.parse "join(\"  \", \"\")" = .ok ⟨"join", ["  ", ""]⟩ := by decide +kernel
  have hjoin : Build.expressionCommand .builtin .sprite "join" = .ok joinCommand :=
    Build.expressionCommand_eq_ok.2
      ⟨Catalog.builtin_resolve (c := joinCommand) (by decide), rfl, rfl⟩
  refine ⟨_, _, _, rfl, hrun, hwarnings, by decide +kernel, by decide +kernel, ?_, ?_⟩
  · refine hall.2 _ (.nested ?_ hparse hjoin (.own List.mem_cons_self)) ⟨nofun, rfl, ?_⟩ <;>
      decide +kernel
  · refine hall.2 _ (.nested ?_ hparse hjoin (.own ?_)) ⟨nofun, rfl, ?_⟩ <;> decide +kernel

end BlockScript

import BlockScript.Proofs.Bond

/-!
# Walking along the work on lines

Every part of the work that makes blocks keeps a bond that the elementary operations keep, and tells
the remarks that `Remarks` gives for it. There is one lemma for each part, from the operand of a
comparison up to the call (`Bond.expression_holds`) and from there to the line and to all lines of a
target (`Bond.line_holds`, `Bond.lines_holds`).

Whatever is to be shown of the work by induction along it is an instance: what it can do to a draft
(`Build.lines_evolves`), which blocks it leaves alone (`Build.expression_adds`), which texts it puts
into blocks (`Script.isInline_of_draft`), that it does not depend on where identifiers start
(`Script.draft_parallel`), and, at the end of this file, which remarks it tells
(`Build.line_tells`).
-/

namespace BlockScript

namespace Bond

open Build

variable {bond : Bond} {catalog : Catalog} {target : TargetKind} {line : Nat}
  {read : Remarks.Reader} {embed : Embed} {a b : BlockId}

/-! ### Texts -/

namespace Reads

variable {text : String}

/-- A text of one line is what every bond asks for. -/
theorem of_isInline (h : Text.IsInline text) : bond.Reads text := fun _ ↦ h

/-- A trimmed text stays on one line if the bond asks for it. -/
theorem trim (h : bond.Reads text) : bond.Reads (Text.trim text) := fun hinline ↦
  (h hinline).trim

/-- A text without its marker stays on one line if the bond asks for it. -/
theorem dropMarker (h : bond.Reads text) : bond.Reads (Call.dropMarker text) := fun hinline ↦
  (h hinline).dropMarker

end Reads

/-- The arguments stay on one line, if the bond asks for it. -/
def ReadsAll (bond : Bond) (args : Arguments) : Prop :=
  bond.inline → args.IsInline

/-! ### Operations -/

section

variable (hk : bond.IsKept catalog target) {told : List Warning} {d e : Draft}
include hk

/-- The texts of a command stay on one line if the bond asks for it. -/
theorem IsKept.command {c : Command} (hc : c ∈ catalog.commands.values) (h : bond.inline) :
    c.IsInline :=
  hk.inline h c hc

/-- The fields of the block of a command are filled one after the other. -/
theorem IsKept.bindFields (line : Nat) {c : Command} (hc : c ∈ catalog.commands.values)
    (hid : bond.Own a b) {args : Arguments} (hargs : bond.ReadsAll args) (hhas : d.Has a c.opcode)
    (h : bond.drafts told d e) :
    bond.drafts (told ++ Remarks.warnings line (c.fields.flatMap (Remarks.field c.name args)))
      (d.bindFields line c.name c.fields args a) (e.bindFields line c.name c.fields args b) := by
  have hspecs : ∀ specs : List FieldSpec, specs ⊆ c.fields → ∀ {told d e}, d.Has a c.opcode →
      bond.drafts told d e →
      bond.drafts (told ++ Remarks.warnings line (specs.flatMap (Remarks.field c.name args)))
        (d.bindFields line c.name specs args a) (e.bindFields line c.name specs args b) := by
    intro specs
    induction specs with
    | nil => exact fun _ _ _ _ _ h ↦ drafts_nil h
    | cons spec specs ih =>
      intro hsub told d e hhas h
      obtain ⟨hspec, hrest⟩ := List.cons_subset.1 hsub
      have hbinding : (⟨c.opcode, spec.name, spec.symbols⟩ : Binding) ∈ catalog.bindings :=
        Catalog.bindings_subset hc (List.mem_append_left _ (List.mem_map.2 ⟨spec, hspec, rfl⟩))
      have hinline := fun hone ↦ (hk.command hc hone).fields spec hspec
      have htold := bond.tell line (Remarks.field c.name args spec) h
      have htoldHas : (d.tell line (Remarks.field c.name args spec)).Has a c.opcode :=
        hhas.of_blocks_eq rfl
      have hset := hk.setText hbinding htoldHas hid
        (fun hone ↦ (hinline hone).fieldText ((hargs hone).read spec.source))
        (fun hone ↦ (hinline hone).fallback) htold
      rw [List.flatMap_cons, Remarks.warnings_append, ← List.append_assoc]
      refine ih hrest ?_ ?_
      · rw [Draft.bindField_eq]
        exact htoldHas.setText a spec.name _ _ _
      · rw [Draft.bindField_eq, Draft.bindField_eq]
        exact hset
  exact hspecs c.fields (List.Subset.refl _) hhas h

/-- The text of a menu is shown as a constant or in a shadow block. -/
theorem IsKept.menuFallback {c : Command} (hc : c ∈ catalog.commands.values)
    (havailable : c.isAvailableOn target = true) {spec : InputSpec} (hspec : spec ∈ c.inputs)
    (howner : bond.names.twin a b) {raw : String} (hraw : bond.Reads raw)
    (h : bond.drafts told d e) :
    bond.Fallbacks (d.menuFallback line spec a raw).1 (e.menuFallback line spec b raw).1 ∧
      bond.drafts (told ++ Remarks.warnings line (spec.menuText raw).2.toList)
        (d.menuFallback line spec a raw).2 (e.menuFallback line spec b raw).2 := by
  have hinline := fun hone ↦ (hk.command hc hone).inputs spec hspec
  have htext : bond.Reads (spec.menuText raw).1 := fun hone ↦ (hinline hone).menuText (hraw hone)
  have htold := bond.tell line (spec.menuText raw).2.toList h
  rw [Draft.menuFallback_eq, Draft.menuFallback_eq]
  cases hmenu : spec.menuOpcode with
  | none => exact ⟨⟨.literal _, fun hone ↦ Fallback.isInline_literal (htext hone)⟩, htold⟩
  | some opcode =>
    have hop : opcode ∈ catalog.opcodes target :=
      Catalog.opcodes_subset hc havailable
        (List.mem_cons_of_mem _ (List.mem_filterMap.2 ⟨spec, hspec, hmenu⟩))
    have hbinding :
        (⟨opcode, spec.menuField.getD spec.name, spec.symbols⟩ : Binding) ∈ catalog.bindings :=
      Catalog.bindings_subset hc (List.mem_append_right _
        (List.mem_filterMap.2 ⟨spec, hspec, by rw [InputSpec.binding?, hmenu]; rfl⟩))
    obtain ⟨hid, hcreated⟩ := hk.create hop (.shadow howner) htold
    exact ⟨⟨.shadow hid.2, fun _ ↦ nofun⟩,
      hk.setText hbinding (Draft.has_create _ _ _) hid htext (fun hone ↦ (hinline hone).fallback)
        hcreated⟩

/-- New blocks in the same role are the same block in both runs. -/
theorem IsKept.create_holds {opcode : String} {role role' : Role}
    (hop : opcode ∈ catalog.opcodes target) (hrole : role.Renamed bond.names role') :
    bond.Holds line [] bond.Own (Build.create opcode role) (Build.create opcode role') :=
  .modifyGet fun h ↦ ⟨(hk.create hop hrole h).1, drafts_nil (hk.create hop hrole h).2⟩

/-- The same content in the same slot keeps the drafts together. -/
theorem IsKept.setInput_holds (hid : bond.Own a b) (name : String) {slot slot' : Slot}
    (hslot : bond.Slots slot slot') :
    bond.Holds line [] Eq (modify fun d ↦ d.setInput a name slot : Build PUnit)
      (modify fun d ↦ d.setInput b name slot' : Build PUnit) :=
  .modify fun h ↦ hk.setInput name hid hslot h

end

/-- The same block is the same content. -/
theorem slots_block (h : bond.names.twin a b) : bond.Slots (.block a) (.block b) :=
  ⟨.block h, fun _ ↦ Slot.isInline_block a⟩

/-- The same constant is the same content. -/
theorem slots_literal {value : Literal} (h : bond.Reads value.text) :
    bond.Slots (.literal value) (.literal value) :=
  ⟨.literal value, fun hone ↦ Slot.isInline_literal (h hone)⟩

/-- The same value over the same fallback is the same content. -/
theorem slots_covered {f g : Fallback} (h : bond.names.twin a b) (hfallback : bond.Fallbacks f g) :
    bond.Slots (.covered a f) (.covered b g) :=
  ⟨.covered h hfallback.1, fun hone ↦ Slot.isInline_covered a (hfallback.2 hone)⟩

section

variable (hk : bond.IsKept catalog target) (he : bond.EmbedHolds line read embed)

/-! ### Conditions -/

include hk he in
/-- An operand keeps the bond. -/
theorem operand_holds (hid : bond.Own a b) (input : String) {text : String}
    (htext : bond.Reads text) :
    bond.Holds line (Remarks.operand read text) Eq (operand embed a input text)
      (operand embed b input text) := by
  unfold operand Remarks.operand Reading.isOperandExpression
  by_cases hx : (Call.isShaped text || Text.startsWith text "@") = true
  · rw [if_pos hx, if_pos hx, if_pos hx]
    exact ((he false htext.dropMarker hid.2).map fun _ _ h ↦ slots_block h.2).andThen
      fun _ _ hslot ↦ hk.setInput_holds hid input hslot
  · rw [if_neg hx, if_neg hx, if_neg hx]
    refine (Holds.pure (slots_literal fun hone ↦ ?_)).andThen
      fun _ _ hslot ↦ hk.setInput_holds hid input hslot
    split
    · exact Text.isInline_formatNumber _
    · exact (htext hone).unquote

include hk he in
/-- The operands go into the block of the comparison, which is new. -/
theorem comparison_holds (howner : bond.names.twin a b) {opcode : String}
    (hop : opcode ∈ Opcode.grammar) {c : Comparison} (hleft : bond.Reads c.left)
    (hright : bond.Reads c.right) :
    bond.Holds line (Remarks.comparison read c) bond.Own (comparison embed opcode c.left c.right a)
      (comparison embed opcode c.left c.right b) := by
  refine (hk.create_holds (Catalog.mem_opcodes_of_grammar hop) (.value howner)).bind
    fun _ _ hid ↦ ?_
  refine (operand_holds hk he hid "OPERAND1" hleft).bind fun _ _ _ ↦ ?_
  exact (operand_holds hk he hid "OPERAND2" hright).andThen fun _ _ _ ↦ .pure hid

include hk in
/-- The negated block gets another parent, so it has to be one that the work may change. -/
theorem negation_holds (howner : bond.names.twin a b) {inner inner' : BlockId}
    (hinner : bond.Own inner inner') :
    bond.Holds line [] bond.Own (negation inner a) (negation inner' b) := by
  have hop : Opcode.not ∈ catalog.opcodes target := Catalog.mem_opcodes_of_grammar (by decide)
  refine (hk.create_holds hop (.value howner)).andThen fun block block' hid ↦ ?_
  refine Holds.andThen (.modify fun h ↦ ?_) fun _ _ _ ↦ .pure hid
  exact hk.setInput _ hid (slots_block hinner.2) (hk.setParent hinner hid.2 h)

include hk he in
/-- A comparison in infix form keeps the bond. -/
theorem comparisonOf_holds (howner : bond.names.twin a b) {c : Comparison}
    (hleft : bond.Reads c.left) (hright : bond.Reads c.right) :
    bond.Holds line (Remarks.comparison read c) bond.Own (comparisonOf embed c a)
      (comparisonOf embed c b) := by
  have hplain : ∀ opcode ∈ Opcode.grammar, bond.Holds line (Remarks.comparison read c) bond.Own
      (comparison embed opcode c.left c.right a) (comparison embed opcode c.left c.right b) :=
    fun _ hop ↦ comparison_holds hk he howner hop hleft hright
  have hnegated : ∀ opcode ∈ Opcode.grammar, bond.Holds line (Remarks.comparison read c) bond.Own
      (comparison embed opcode c.left c.right a >>= fun inner ↦ negation inner a)
      (comparison embed opcode c.left c.right b >>= fun inner ↦ negation inner b) :=
    fun opcode hop ↦ (hplain opcode hop).andThen fun _ _ hinner ↦ negation_holds hk howner hinner
  unfold comparisonOf
  cases c.relation with
  | greater | less | equal | sameAs => exact hplain _ (by decide)
  | atLeast | atMost | notEqual => exact hnegated _ (by decide)

include hk in
/-- A constant condition keeps the bond. -/
theorem truthValue_holds (howner : bond.names.twin a b) (value : Bool) :
    bond.Holds line [] bond.Own (truthValue value a) (truthValue value b) := by
  have hop : Opcode.equals ∈ catalog.opcodes target := Catalog.mem_opcodes_of_grammar (by decide)
  refine (hk.create_holds hop (.value howner)).andThen fun _ _ hid ↦ ?_
  refine Holds.andThen (.modify fun h ↦ ?_) fun _ _ _ ↦ .pure hid
  have hfirst : Text.IsInline (if value then "1" else "0") := by cases value <;> decide
  have hsecond : Text.IsInline "1" := by decide
  exact hk.setInput _ hid (slots_literal fun _ ↦ hsecond)
    (hk.setInput _ hid (slots_literal fun _ ↦ hfirst) h)

include hk he in
/-- A condition keeps the bond. -/
theorem condition_holds (howner : bond.names.twin a b) (command : String) {raw : String}
    (hraw : bond.Reads raw) :
    bond.Holds line (Remarks.condition read command raw) bond.Own
      (condition embed line command raw a) (condition embed line command raw b) := by
  unfold condition Remarks.condition
  have hvalue := hraw.trim
  generalize Text.trim raw = value at hvalue ⊢
  dsimp only
  cases Text.startsWith value "@" || Call.isShaped value with
  | true => exact he true hvalue.dropMarker howner
  | false =>
    simp only [Bool.false_eq_true, if_false]
    cases hsplit : Comparison.split? value with
    | some c =>
      exact comparisonOf_holds hk he howner (fun hone ↦ ((hvalue hone).of_split hsplit).1)
        fun hone ↦ ((hvalue hone).of_split hsplit).2
    | none =>
      dsimp only
      cases Text.lower (Token.unquote value) == "true" with
      | true => exact truthValue_holds hk howner true
      | false =>
        simp only [Bool.false_eq_true, if_false, Bool.false_or]
        split
        · exact truthValue_holds hk howner false
        · exact (Holds.warn _).andThen fun _ _ _ ↦ truthValue_holds hk howner false

/-! ### Slots -/

variable {c : Command} (hc : c ∈ catalog.commands.values)
  (havailable : c.isAvailableOn target = true) {spec : InputSpec} (hspec : spec ∈ c.inputs)

include hk he hc havailable hspec

/-- The content of a menu keeps the bond. -/
theorem menuSlot_holds (howner : bond.names.twin a b) {raw : String} (hraw : bond.Reads raw) :
    bond.Holds line (Remarks.menuSlot read spec raw) bond.Slots (menuSlot embed line spec a raw)
      (menuSlot embed line spec b raw) := by
  have hinline := fun hone ↦ (hk.command hc hone).inputs spec hspec
  unfold menuSlot Remarks.menuSlot
  cases spec.isExpression raw with
  | true =>
    simp only [if_true]
    refine Holds.bind (.modifyGet fun h ↦ hk.menuFallback hc havailable hspec howner
      (fun hone ↦ (hinline hone).defaultText) h) fun f g hfallback ↦ ?_
    exact (he false hraw.dropMarker howner).andThen fun _ _ hvalue ↦
      .pure (slots_covered hvalue.2 hfallback)
  | false =>
    simp only [Bool.false_eq_true, if_false]
    refine Holds.andThen (.modifyGet fun h ↦ hk.menuFallback hc havailable hspec howner hraw h)
      fun f g hfallback ↦ .pure ?_
    obtain ⟨hrenamed, hinline⟩ := hfallback
    cases hrenamed with
    | literal value => exact slots_literal fun hone ↦ hinline hone value rfl
    | shadow hmenu => exact ⟨.shadow hmenu, fun _ ↦ Slot.isInline_shadow _⟩

omit havailable in
/-- The content of an ordinary slot keeps the bond. -/
theorem literalSlot_holds (howner : bond.names.twin a b) {raw : String} (hraw : bond.Reads raw) :
    bond.Holds line (Remarks.literalSlot read c.name spec raw) bond.Slots
      (literalSlot embed line c.name spec a raw) (literalSlot embed line c.name spec b raw) := by
  have hinline := fun hone ↦ (hk.command hc hone).inputs spec hspec
  unfold literalSlot Remarks.literalSlot
  cases spec.isExpression raw with
  | true =>
    simp only [if_true]
    refine (he false hraw.dropMarker howner).andThen fun _ _ hvalue ↦
      .pure (slots_covered hvalue.2 ⟨.literal _, fun hone ↦ ?_⟩)
    exact Fallback.isInline_literal (spec.kind.isInline_literal (hinline hone).defaultText)
  | false =>
    simp only [Bool.false_eq_true, if_false]
    refine Holds.andThen (.tell fun h ↦ ?_) fun _ _ _ ↦ .pure (slots_literal fun hone ↦ ?_)
    · rw [Draft.warnIf_eq_tell, Draft.warnIf_eq_tell]
      exact bond.tell line _ h
    · exact spec.kind.isInline_literal ((hinline hone).literalText c.name (hraw hone))

end

/-- The content of any slot keeps the bond. -/
theorem slotContent_holds (hk : bond.IsKept catalog target) (he : bond.EmbedHolds line read embed)
    {c : Command} (hc : c ∈ catalog.commands.values) (havailable : c.isAvailableOn target = true)
    {spec : InputSpec} (hspec : spec ∈ c.inputs) (howner : bond.names.twin a b) {raw : String}
    (hraw : bond.Reads raw) :
    bond.Holds line (Remarks.content read c.name spec raw) bond.Slots
      (slotContent embed line c.name spec a raw) (slotContent embed line c.name spec b raw) := by
  unfold slotContent Remarks.content
  cases spec.kind with
  | menu => exact menuSlot_holds hk he hc havailable hspec howner hraw
  | boolean =>
    exact (condition_holds hk he howner c.name hraw).map fun _ _ hvalue ↦ slots_block hvalue.2
  | text | number | integer | angle | color => exact literalSlot_holds hk he hc hspec howner hraw

/-- An input is filled with what its text stands for. The block itself need not be a new one. -/
theorem bindInput_holds {command : String} {args : Arguments} {spec : InputSpec}
    (hcontent : bond.Holds line (Remarks.content read command spec (Reading.inputText spec args))
      bond.Slots (slotContent embed line command spec a (Reading.inputText spec args))
      (slotContent embed line command spec b (Reading.inputText spec args)))
    (hset : ∀ {told d e slot slot'}, bond.Slots slot slot' → bond.drafts told d e →
      bond.drafts told (d.setInput a spec.name slot) (e.setInput b spec.name slot')) :
    bond.Holds line (Remarks.input read command args spec) Eq
      (bindInput embed line command args a spec) (bindInput embed line command args b spec) := by
  have htext : bond.Holds line (Remarks.missing command args spec)
      (fun raw raw' ↦ raw = Reading.inputText spec args ∧ raw' = Reading.inputText spec args)
      (modifyGet fun d ↦ d.inputText line command spec args : Build String)
      (modifyGet fun d ↦ d.inputText line command spec args : Build String) := by
    refine .modifyGet fun h ↦ ?_
    rw [Draft.inputText_eq_tell, Draft.inputText_eq_tell]
    exact ⟨⟨rfl, rfl⟩, bond.tell line _ h⟩
  rw [bindInput_eq, bindInput_eq, Remarks.input_eq]
  refine htext.bind ?_
  rintro _ _ ⟨rfl, rfl⟩
  exact hcontent.andThen fun _ _ hslot ↦ .modify fun h ↦ hset hslot h

/-- The inputs of a block are filled one after the other. -/
theorem bindInputs_holds {c : Command} {args : Arguments}
    (hinputs : ∀ spec ∈ c.inputs, bond.Holds line (Remarks.input read c.name args spec) Eq
      (bindInput embed line c.name args a spec) (bindInput embed line c.name args b spec)) :
    bond.Holds line (c.inputs.flatMap (Remarks.input read c.name args)) Eq
      (c.inputs.forM (bindInput embed line c.name args a) >>= fun _ ↦
        modify fun d ↦ d.useExtension c.extension?)
      (c.inputs.forM (bindInput embed line c.name args b) >>= fun _ ↦
        modify fun d ↦ d.useExtension c.extension?) :=
  (Holds.forM hinputs).andThen fun _ _ _ ↦ .modify fun h ↦ bond.extension c.extension? h

/-- The fields and inputs of a block are filled. -/
theorem bindSlots_holds {c : Command} {args : Arguments}
    (hfields : ∀ {told d e}, bond.drafts told d e →
      bond.drafts (told ++ Remarks.warnings line (c.fields.flatMap (Remarks.field c.name args)))
        (d.bindFields line c.name c.fields args a) (e.bindFields line c.name c.fields args b))
    (hinputs : ∀ spec ∈ c.inputs, bond.Holds line (Remarks.input read c.name args spec) Eq
      (bindInput embed line c.name args a spec) (bindInput embed line c.name args b spec)) :
    bond.Holds line (Remarks.commandBlock read c args) Eq (bindSlots embed line c args a)
      (bindSlots embed line c args b) :=
  (Holds.tell hfields).bind fun _ _ _ ↦ bindInputs_holds hinputs

/-- The block of a command is made, with its fields and inputs. -/
theorem commandBlock_holds {α β : Type} {rel : α → β → Prop} (hk : bond.IsKept catalog target)
    (he : bond.EmbedHolds line read embed) {c : Command} (hc : c ∈ catalog.commands.values)
    (havailable : c.isAvailableOn target = true) {args : Arguments} (hargs : bond.ReadsAll args)
    {role role' : Role} (hrole : role.Renamed bond.names role') {more : BlockId → Build α}
    {further : BlockId → Build β}
    (hmore : ∀ a b, bond.Own a b → bond.Holds line [] rel (more a) (further b)) :
    bond.Holds line (Remarks.commandBlock read c args) rel
      (create c.opcode role >>= fun block ↦ bindSlots embed line c args block >>= fun _ ↦
        more block)
      (create c.opcode role' >>= fun block ↦
        bindSlots embed line c args block >>= fun _ ↦ further block) := by
  intro before d e h
  have hop := Catalog.opcodes_subset hc havailable List.mem_cons_self
  obtain ⟨hid, hcreated⟩ := hk.create hop hrole h
  -- the fields are filled right after the block is made, while it has its operation code
  have hfields := hk.bindFields line hc hid hargs (d.has_create c.opcode role) hcreated
  have hinputs : ∀ spec ∈ c.inputs, bond.Holds line (Remarks.input read c.name args spec) Eq
      (bindInput embed line c.name args (d.create c.opcode role).1 spec)
      (bindInput embed line c.name args (e.create c.opcode role').1 spec) := by
    intro spec hspec
    refine bindInput_holds (slotContent_holds hk he hc havailable hspec hid.2 fun hone ↦ ?_)
      fun hslot h ↦ hk.setInput spec.name hid hslot h
    exact ((hk.command hc hone).inputs spec hspec).inputText (hargs hone)
  have hrest := (bindInputs_holds hinputs).andThen fun _ _ _ ↦ hmore _ _ hid
  rw [Remarks.commandBlock, Remarks.warnings_append, ← List.append_assoc]
  exact hrest hfields

/-! ### Calls -/

/-- A call keeps the bond when its arguments do. -/
theorem callBlock_holds (hk : bond.IsKept catalog target) (he : bond.EmbedHolds line read embed) :
    bond.EmbedHolds line (Remarks.call read catalog target)
      (callBlock embed catalog target line) := by
  intro text owner owner' condition htext howner
  unfold callBlock Remarks.call
  cases hparse : Call.parse text with
  | error value => exact .fail line _
  | ok call =>
    dsimp only
    cases hcommand : expressionCommand catalog target call.name with
    | error fault => exact .fail line fault
    | ok c =>
      obtain ⟨hresolve, -, havailable⟩ := expressionCommand_eq_ok.1 hcommand
      have hargs : bond.ReadsAll (.ofCall call.args) := fun hone ↦ (htext hone).of_parse hparse
      have hblock := commandBlock_holds hk he (Catalog.mem_values_of_resolve? hresolve) havailable
        hargs (.value howner) fun a b hid ↦
          (Holds.pure hid : bond.Holds line [] bond.Own (pure a) (pure b))
      dsimp only
      split
      · exact (Holds.warn _).bind fun _ _ _ ↦ hblock
      · exact hblock

/-- Making the blocks of an expression keeps the bond. -/
theorem expression_holds (hk : bond.IsKept catalog target) (line bound : Nat) :
    bond.EmbedHolds line (Remarks.expression catalog target bound)
      (expression catalog target line bound) := by
  induction bound with
  | zero => exact fun _ _ _ _ _ _ ↦ .fail line _
  | succ bound ih => exact callBlock_holds hk ih

/-! ### Lines -/

section

variable (hk : bond.IsKeptByLines catalog target)
include hk

/-- An end keeps the bond. -/
theorem closeBlock_holds (line : Nat) :
    bond.Holds line [] Eq (closeBlock line) (closeBlock line) := by
  refine .get_bind fun {before d e} h ↦ ?_
  have hframes := hk.frames h
  cases hd : d.frames with
  | nil =>
    rw [hd] at hframes
    have he := List.forall₂_nil_left_iff.1 hframes
    rw [he]
    rcases optionRel_cases (hk.script h) with ⟨hds, hes⟩ | ⟨last, last', hds, hes, -⟩
    · rw [hds, hes]
      exact .stopped h
    · rw [hds, hes]
      exact .done rfl (drafts_nil (hk.move .none .nil h))
  | cons f fs =>
    rw [hd] at hframes
    obtain ⟨g, gs, -, houter, he⟩ := List.forall₂_cons_left_iff.1 hframes
    rw [he]
    exact .done rfl (drafts_nil (hk.move (hk.script h) houter h))

/-- An else keeps the bond. -/
theorem enterElse_holds (line : Nat) :
    bond.Holds line [] Eq (enterElse line) (enterElse line) := by
  refine .get_bind fun {before d e} h ↦ ?_
  have hframes := hk.frames h
  cases hd : d.frames with
  | nil =>
    rw [hd] at hframes
    rw [List.forall₂_nil_left_iff.1 hframes]
    exact .stopped h
  | cons f fs =>
    rw [hd] at hframes
    obtain ⟨g, gs, hframe, houter, he⟩ := List.forall₂_cons_left_iff.1 hframes
    rw [he]
    have hpopped : bond.drafts before { d with frames := fs } { e with frames := gs } :=
      hk.move (hk.script h) houter h
    refine Holds.set_bind hpopped ?_
    -- whether an else can follow depends on the branches alone, which are the same
    rcases hframe.branches.enterElse with ⟨fault, hf, hg⟩ | ⟨bs, cs, hf, hg, hbranches⟩
    · rw [hf, hg]
      exact .fail line fault
    · rw [hf, hg]
      have hopen : bond.Holds line [] Eq
          (modify fun d ↦ d.openFrame { f with branches := bs } : Build PUnit)
          (modify fun d ↦ d.openFrame { g with branches := cs } : Build PUnit) :=
        .modify fun h ↦
          hk.move (hk.script h) (.cons { hframe with branches := hbranches } (hk.frames h)) h
      have hupgrade : bond.Holds line [] Eq
          (modify fun d ↦ d.update f.block fun b ↦ { b with opcode := Opcode.ifElse } : Build PUnit)
          (modify fun d ↦ d.update g.block fun b ↦
            { b with opcode := Opcode.ifElse } : Build PUnit) :=
        .modify fun h ↦ hk.branch hframe.block h
      have hsame := hframe.branches
      cases hfb : f.branches with
      | ifThen body =>
        rw [hfb] at hsame
        cases hgb : g.branches <;> rw [hgb] at hsame <;> cases hsame
        exact hupgrade.andThen fun _ _ _ ↦ hopen
      | single body =>
        rw [hfb] at hsame
        cases hgb : g.branches <;> rw [hgb] at hsame <;> cases hsame
        exact hopen
      | ifElse body otherwise inElse =>
        rw [hfb] at hsame
        cases hgb : g.branches <;> rw [hgb] at hsame <;> cases hsame
        exact hopen

/-- A declaration keeps the bond. -/
theorem declare_holds (line : Nat) (name : String) {args : List String}
    (hargs : ∀ text ∈ args, bond.Reads text) :
    bond.Holds line [] Eq (declare line name args) (declare line name args) := by
  unfold declare
  split
  · next kind initial hdeclaration =>
    have hinitial : bond.Reads initial := by
      intro hone
      unfold declaration? at hdeclaration
      split at hdeclaration
      · obtain ⟨-, rfl⟩ := Prod.mk.inj (Option.some.inj hdeclaration)
        split
        · exact Text.isInline_join_space fun text ht ↦ hargs text (List.mem_of_mem_drop ht) hone
        · decide
      · split at hdeclaration
        · obtain ⟨-, rfl⟩ := Prod.mk.inj (Option.some.inj hdeclaration)
          decide
        · split at hdeclaration
          · obtain ⟨-, rfl⟩ := Prod.mk.inj (Option.some.inj hdeclaration)
            decide
          · cases hdeclaration
    have hname : bond.Reads (args.head?.getD "") := by
      cases args with
      | nil => exact .of_isInline (by decide)
      | cons first rest => exact hargs first List.mem_cons_self
    have hfallback : Text.IsTidy kind.fallbackName := by cases kind <;> decide
    exact .modify fun h ↦
      (hk.intern kind (fun hone ↦ Text.isTidy_nameOr (hname hone) hfallback) hinitial h).2
  · exact .fail line _

/-- A signature is the same in both runs, and tidy if the bond asks for it. -/
theorem signature_holds {args : List String} (hargs : ∀ text ∈ args, bond.Reads text) :
    bond.Holds line [] (fun name name' ↦ name = name' ∧ (bond.inline → Text.IsTidy name))
      (signature args) (signature args) := by
  have hname : bond.inline → Text.IsTidy
      (Text.nameOr (Text.join " " args) SymbolKind.procedures.fallbackName) := fun hone ↦
    Text.isTidy_nameOr (Text.isInline_join_space fun text ht ↦ hargs text ht hone) (by decide)
  have hsymbol : bond.Holds line []
      (fun s t : Symbol ↦ s.name = t.name ∧ (bond.inline → Text.IsTidy s.name))
      (modifyGet fun d ↦ d.intern .procedures
        (Text.nameOr (Text.join " " args) SymbolKind.procedures.fallbackName) "" : Build Symbol)
      (modifyGet fun d ↦ d.intern .procedures
        (Text.nameOr (Text.join " " args) SymbolKind.procedures.fallbackName) "" : Build Symbol) :=
    .modifyGet fun h ↦
      have hinterned := hk.intern .procedures hname (.of_isInline (by decide)) h
      ⟨hinterned.1, drafts_nil hinterned.2⟩
  exact hsymbol.andThen fun _ _ h ↦ .pure h

/-- A definition keeps the bond. -/
theorem define_holds {args : List String} (hargs : ∀ text ∈ args, bond.Reads text) :
    bond.Holds line [] Eq (define args) (define args) := by
  have hdefinition : Opcode.definition ∈ catalog.opcodes target :=
    Catalog.mem_opcodes_of_grammar (by decide)
  have hprototype : Opcode.prototype ∈ catalog.opcodes target :=
    Catalog.mem_opcodes_of_grammar (by decide)
  refine (signature_holds hk hargs).andThen ?_
  rintro name _ ⟨rfl, hname⟩
  refine (hk.create_holds hdefinition .entry).andThen fun a b hid ↦ ?_
  refine (hk.create_holds hprototype (.shadow hid.2)).andThen fun p q hproto ↦ .modify fun h ↦ ?_
  have hset := hk.setInput "custom_block" hid
    ⟨.shadow hproto.2, fun _ ↦ Slot.isInline_shadow p⟩ h
  have hnamed := hk.setProcedure hproto.2 hname hset
  exact hk.countCommand (hk.move (.some hid.2) .nil hnamed)

/-- The script that starts by itself keeps the drafts together. -/
theorem ensureScript_drafts {told : List Warning} {d e : Draft} (h : bond.drafts told d e) :
    bond.drafts told d.ensureScript e.ensureScript := by
  have hflag : Opcode.flagClicked ∈ catalog.opcodes target :=
    Catalog.mem_opcodes_of_grammar (by decide)
  rcases optionRel_cases (hk.script h) with ⟨hd, he⟩ | ⟨last, last', hd, he, -⟩
  · obtain ⟨hid, hcreated⟩ := hk.create hflag .entry h
    simpa [Draft.ensureScript, Draft.openScript, hd, he] using hk.move (.some hid.2) .nil hcreated
  · simpa [Draft.ensureScript, hd, he] using h

variable (he : bond.EmbedHolds line read embed)
include he

/-- A statement tells what is remarked on its slots. -/
theorem statement_holds {c : Command} (hc : c ∈ catalog.commands.values)
    (havailable : c.isAvailableOn target = true) {tokens raw : List String}
    (hargs : bond.ReadsAll (.ofLine tokens raw)) :
    bond.Holds line (Remarks.commandBlock read c (.ofLine tokens raw)) Eq
      (statement embed line c tokens raw) (statement embed line c tokens raw) := by
  have hcount : bond.Holds line [] Eq (modify Draft.countCommand : Build PUnit)
      (modify Draft.countCommand : Build PUnit) := .modify fun h ↦ hk.countCommand h
  have hrole : (if c.kind == .hat then Role.entry else .statement).Renamed bond.names
      (if c.kind == .hat then Role.entry else .statement) := by
    split
    · exact .entry
    · exact .statement
  refine commandBlock_holds hk.toIsKept he hc havailable hargs hrole fun a b hid ↦ ?_
  refine Holds.andThen (.modify fun h ↦ ?_) fun _ _ _ ↦ ?_
  · split
    · exact hk.move (.some hid.2) .nil h
    · exact hk.append hid.2 h
  · have hframe : Frame.Renamed bond.names ⟨a, c.name, line, Branches.ofCommand c⟩
        ⟨b, c.name, line, Branches.ofCommand c⟩ :=
      ⟨hid.2, rfl, rfl, Branches.renamed_ofCommand c⟩
    dsimp only
    split
    · refine Holds.andThen (.modify fun h ↦ ?_) fun _ _ _ ↦ hcount
      exact hk.move (hk.script h) (.cons hframe (hk.frames h)) h
    · refine (signature_holds hk fun text ht hone ↦ (hargs hone).1 text ht).andThen ?_
      rintro name _ ⟨rfl, hname⟩
      exact (Holds.modify fun h ↦ hk.setProcedure hid.2 hname h).andThen fun _ _ _ ↦ hcount
    · exact hcount

/-- Only the commands whose block has slots tell anything. -/
theorem command_holds {c : Command} (hc : c ∈ catalog.commands.values) {tokens raw : List String}
    (hargs : bond.ReadsAll (.ofLine tokens raw)) :
    bond.Holds line (if c.kind = .hat ∨ c.kind.isStatement = true then
        Remarks.commandBlock read c (.ofLine tokens raw) else []) Eq
      (command embed target line c tokens raw) (command embed target line c tokens raw) := by
  have htokens : ∀ text ∈ tokens, bond.Reads text := fun text ht hone ↦ (hargs hone).1 text ht
  have hnested : ∀ {told d e}, bond.drafts told d e → d.frames.isEmpty = e.frames.isEmpty := by
    intro told d e h
    rw [Bool.eq_iff_iff, List.isEmpty_iff_length_eq_zero, List.isEmpty_iff_length_eq_zero,
      (hk.frames h).length_eq]
  have hstatement : c.isAvailableOn target = true →
      bond.Holds line (Remarks.commandBlock read c (.ofLine tokens raw)) Eq
        (statement embed line c tokens raw) (statement embed line c tokens raw) :=
    fun havailable ↦ statement_holds hk he hc havailable hargs
  have hopened : c.isAvailableOn target = true →
      bond.Holds line (Remarks.commandBlock read c (.ofLine tokens raw)) Eq
        (modify Draft.ensureScript >>= fun _ ↦ statement embed line c tokens raw)
        (modify Draft.ensureScript >>= fun _ ↦ statement embed line c tokens raw) :=
    fun havailable ↦
      (Holds.modify (ensureScript_drafts hk)).bind fun _ _ _ ↦ hstatement havailable
  unfold command
  cases hkind : c.kind <;>
    simp only [CommandKind.isStatement, reduceCtorEq, or_self, or_true, true_or, if_true, if_false,
      Bool.false_eq_true]
  case finish => exact closeBlock_holds hk line
  case otherwise => exact enterElse_holds hk line
  case declare => exact declare_holds hk line c.name htokens
  -- a command that is not available stops the build, which then tells nothing
  all_goals cases havailable : c.isAvailableOn target
  case hat.false | stack.false | nesting.false | define.false | call.false | reporter.false |
      boolean.false | reporter.true | boolean.true => exact .fail line _
  case define.true =>
    refine .get_bind fun {_ d e} h ↦ ?_
    rw [hnested h]
    cases !e.frames.isEmpty with
    | true => exact .stopped h
    | false => exact define_holds hk htokens h
  case hat.true =>
    refine .get_bind fun {_ d e} h ↦ ?_
    rw [hnested h]
    cases !e.frames.isEmpty with
    | true => exact .stopped h
    | false => exact hstatement havailable h
  case stack.true | nesting.true | call.true =>
    exact .get_bind fun h ↦ hopened havailable h

omit he

/-- **A line keeps the bond**, and tells the remarks on it. -/
theorem line_holds {source : SourceLine} (hsource : bond.Reads source.text) :
    bond.Holds source.line (Remarks.line catalog target source) Eq
      (Build.line catalog target source)
      (Build.line catalog target source) := by
  unfold Build.line Remarks.line SourceLine.tokens
  have htext := hsource.trim
  dsimp only
  generalize Text.trim source.text = text at htext ⊢
  -- a blank line or a comment makes nothing and tells nothing
  cases text.isEmpty || Text.startsWith text "#" with
  | true => exact .pure rfl
  | false =>
    simp only [Bool.false_eq_true, if_false]
    cases hsplit : Token.splitLine text with
    | nil => exact .pure rfl
    | cons first raw =>
      have hraw : bond.inline → ∀ part ∈ raw, Text.IsInline part := fun hone part hpart ↦
        (htext hone).of_mem_splitLine (hsplit ▸ List.mem_cons_of_mem _ hpart)
      have hargs : bond.ReadsAll (.ofLine (raw.map Token.unquote) raw) := by
        refine fun hone ↦ ⟨fun part hpart ↦ ?_, hraw hone⟩
        obtain ⟨token, htoken, rfl⟩ := List.mem_map.1 hpart
        exact (hraw hone token htoken).unquote
      dsimp only
      cases hc : catalog.resolve? (Token.unquote first) with
      | none => exact .fail source.line _
      | some c =>
        exact command_holds hk (expression_holds hk.toIsKept source.line _)
          (Catalog.mem_values_of_resolve? hc) hargs

/-- Lines keep the bond one after the other. -/
theorem sources_hold {sources : List SourceLine} (hsources : ∀ s ∈ sources, bond.Reads s.text)
    {told : List Warning} {d e : Draft} (h : bond.drafts told d e) :
    bond.Ends
      (told ++ sources.flatMap fun s ↦ Remarks.warnings s.line (Remarks.line catalog target s)) Eq
      (Script.run (sources.forM (Build.line catalog target)) d)
      (Script.run (sources.forM (Build.line catalog target)) e) := by
  induction sources generalizing told d e with
  | nil => exact .done rfl (by simpa using h)
  | cons s sources ih =>
    obtain ⟨hs, hrest⟩ := List.forall_mem_cons.1 hsources
    have hline := line_holds hk hs h
    have hcons : (s :: sources).forM (Build.line catalog target) =
        Build.line catalog target s >>= fun _ ↦ sources.forM (Build.line catalog target) := rfl
    rw [hcons, run_bind, run_bind, List.flatMap_cons, ← List.append_assoc]
    generalize Script.run (Build.line catalog target s) d = x at hline ⊢
    generalize Script.run (Build.line catalog target s) e = y at hline ⊢
    cases hline with
    | done _ hdone => exact ih hrest hdone
    | stopped hstopped => exact .stopped hstopped

/-- **All lines of a target keep the bond**: from drafts that go together on, both runs end with
drafts that go together, or both stop at the same fault. -/
theorem lines_holds {sources : List SourceLine} (hsources : ∀ s ∈ sources, bond.Reads s.text)
    {told : List Warning} {d e : Draft} (h : bond.drafts told d e) :
    bond.Ends
      (told ++ sources.flatMap fun s ↦ Remarks.warnings s.line (Remarks.line catalog target s)) Eq
      (Script.run (Build.lines catalog target sources) d)
      (Script.run (Build.lines catalog target sources) e) := by
  have hall := sources_hold hk hsources h
  unfold Build.lines
  rw [run_bind, run_bind]
  generalize Script.run (sources.forM (Build.line catalog target)) d = x at hall ⊢
  generalize Script.run (sources.forM (Build.line catalog target)) e = y at hall ⊢
  cases hall with
  | stopped hstopped => exact .stopped hstopped
  | @done _ _ d e _ hdone =>
    -- both runs stop at the same open block, which has the same line and command in both
    have hframes := hk.frames hdone
    dsimp only
    rw [run_get_bind, run_get_bind]
    cases hd : d.frames with
    | nil =>
      rw [hd] at hframes
      rw [List.forall₂_nil_left_iff.1 hframes]
      exact .done rfl hdone
    | cons f fs =>
      rw [hd] at hframes
      obtain ⟨g, gs, hframe, -, he⟩ := List.forall₂_cons_left_iff.1 hframes
      rw [he]
      dsimp only
      rw [hframe.line, hframe.command]
      exact .stopped hdone

end

end Bond

/-! ### Remarks on a line -/

namespace Draft.Property

/-- The warnings are those of a draft, and after them the ones that were told. -/
def telling (base : Draft) : Property where
  keep told d := d.warnings = base.warnings ++ told
  own _ := True
  inline := False
  tell line remarks h := by
    show _ ++ _ = _
    rw [h, List.append_assoc]
  extension extension? h := by cases extension? <;> exact h

/-- Adding a block to the open script tells nothing. -/
theorem warnings_append (d : Draft) (id : BlockId) : (d.append id).warnings = d.warnings := by
  obtain heq | ⟨_, _, ⟨_, heq⟩ | ⟨_, -, _, heq⟩⟩ := d.append_cases id <;> rw [heq] <;> rfl

/-- Nothing but a remark changes the warnings. -/
theorem telling_isKept (base : Draft) (catalog : Catalog) (target : TargetKind) :
    (telling base).IsKeptByLines catalog target where
  inline := False.elim
  create _ _ h := ⟨trivial, h⟩
  setText := by
    intro told d id binding text fallback _ _ _ _ _ h
    cases hsymbols : binding.symbols <;> exact h
  setInput _ _ _ _ h := h
  setParent _ _ h := h
  move _ _ h := h
  append id h := (warnings_append _ id).trans h
  branch _ h := h
  intern _ _ _ _ _ h := ⟨False.elim, h⟩
  setProcedure _ _ _ h := h
  countCommand h := h

end Draft.Property

namespace Build

/-- The work tells these remarks, from any draft that it succeeds on. -/
def Tells (line : Nat) (told : List Remark) {α : Type} (work : Build α) : Prop :=
  ∀ d, LeadsTo (fun _ e ↦ d.Told line told e) (fun _ ↦ True) work d

/-- **What is remarked on a line is a function of the line**: wherever a line is accepted, its
warnings are these, and those of the lines before stay. -/
theorem line_tells (catalog : Catalog) (target : TargetKind) (source : SourceLine) :
    Tells source.line (Remarks.line catalog target source) (line catalog target source) := by
  intro d
  have hkept := (Draft.Property.telling_isKept d catalog target).bond
  have hd : (Draft.Property.telling d).bond.drafts [] d d := ⟨rfl, (List.append_nil _).symm⟩
  have hreads : (Draft.Property.telling d).bond.Reads source.text := False.elim
  have hends := Bond.line_holds hkept hreads hd
  refine (Draft.Property.leadsTo hends).imp (fun _ e h ↦ ?_) fun _ _ ↦ trivial
  have hwarnings : e.warnings = d.warnings ++ ([] ++ Remarks.warnings source.line
      (Remarks.line catalog target source)) := h.2
  rwa [List.nil_append] at hwarnings

end Build

end BlockScript

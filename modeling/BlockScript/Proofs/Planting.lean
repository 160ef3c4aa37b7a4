import BlockScript.Proofs.Growth
import BlockScript.Proofs.Reading

/-!
# Making the blocks of expressions

The blocks that are made for an expression are the tree that reading its text gives. The work on a
draft follows the reading step by step (`Build.expression_reads`): it fails with the same error, and
where it succeeds the draft has grown by exactly the blocks of the tree, all else being as before.

A block under construction is a tree of its own that gets its fields and slots one by one
(`Draft.Plants.addField`, `Draft.Plants.addSlot`).
-/

namespace BlockScript

namespace Draft

/-! ### Trees under construction -/

/-- A draft becomes another one by planting a tree in some setting. -/
structure Plants (d e : Draft) (t : Chain BlockId) (s : Setting) : Prop where
  grows : d.Grows e [] t.tags t.asked
  desk : e.desk = d.desk
  held : t.Held e.graph s

/-- Two drafts differ in their remarks and extensions at most. -/
structure Quiet (d e : Draft) : Prop where
  blocks : e.blocks = d.blocks
  ids : e.ids = d.ids
  symbols : e.symbols = d.symbols
  desk : e.desk = d.desk

namespace Quiet

/-- A step that does nothing is quiet. -/
theorem refl (d : Draft) : d.Quiet d := ⟨rfl, rfl, rfl, rfl⟩

/-- Quiet steps one after the other are quiet. -/
theorem trans {d e f : Draft} (h : d.Quiet e) (h' : e.Quiet f) : d.Quiet f :=
  ⟨h'.blocks.trans h.blocks, h'.ids.trans h.ids, h'.symbols.trans h.symbols, h'.desk.trans h.desk⟩

/-- A warning leaves everything else alone. -/
theorem warn (d : Draft) (line : Nat) (remark : Remark) : d.Quiet (d.warn line remark) :=
  ⟨rfl, rfl, rfl, rfl⟩

/-- A warning that may be missing leaves everything else alone. -/
theorem warnIf (d : Draft) (line : Nat) (remark : Option Remark) :
    d.Quiet (d.warnIf line remark) := by
  cases remark with
  | none => exact refl d
  | some remark => exact warn d line remark

/-- An extension leaves everything else alone. -/
theorem useExtension (d : Draft) (extension? : Option String) :
    d.Quiet (d.useExtension extension?) := by
  cases extension? <;> exact ⟨rfl, rfl, rfl, rfl⟩

/-- A quiet step adds no block, no symbol and no request. -/
theorem grows {d e : Draft} (h : d.Quiet e) (hf : d.Fresh) : d.Grows e [] [] [] :=
  Grows.of_eq hf h.blocks h.ids h.symbols

/-- A quiet step leaves the graph as it is. -/
theorem graph {d e : Draft} (h : d.Quiet e) : e.graph = d.graph := by
  rw [Draft.graph, Draft.graph, h.blocks, h.symbols]

end Quiet

namespace Plants

variable {d e f : Draft} {t : Chain BlockId} {s : Setting}

/-- A quiet step after planting changes nothing about the plant. -/
theorem quiet (h : d.Plants e t s) (hq : e.Quiet f) : d.Plants f t s where
  grows := by simpa using h.grows.trans (hq.grows h.grows.fresh) (by simp)
  desk := hq.desk.trans h.desk
  held := hq.graph ▸ h.held

/-- A quiet step before planting changes nothing about the plant. -/
theorem quiet_left (hd : d.Fresh) (hq : d.Quiet e) (h : e.Plants f t s) : d.Plants f t s where
  grows := by simpa using (hq.grows hd).trans h.grows (by simp)
  desk := h.desk.trans hq.desk
  held := h.held

/-- A new block is planted. -/
theorem create (hd : d.Fresh) (opcode : String) (role : Role) (hrole : role ≠ .entry) :
    d.Plants (d.create opcode role).2 (.cons d.nextId { opcode } .nil .nil)
      (d.roleSetting role) where
  grows := Grows.create hd opcode role
  desk := by simp [Draft.desk, Draft.create, hrole]
  held := held_create d opcode role

/-- The blocks of a planted tree are in the draft. -/
theorem mem_blocks (h : d.Plants e t s) {id : BlockId} (hid : id ∈ t.tags) :
    (e.blocks.find? id).isSome :=
  (h.grows.keys id).2 (.inr hid)

end Plants

/-- A draft becomes another one while a slot of the block `owner` gets its content. -/
def Stocks (d : Draft) (owner : BlockId) (content : Content Unit) (slot : Slot) (e : Draft) :
    Prop :=
  ∃ c : Content BlockId, c.erase = content ∧ slot.Shows c.constant c.value c.shadow ∧
    d.Grows e [] c.tags c.asked ∧ e.desk = d.desk ∧
    c.value.Held e.graph { parent := some owner } ∧
    c.shadow.Held e.graph { parent := some owner, shadow := true }

/-- A draft becomes another one while a value for a slot of the block `owner` is made. -/
def Embeds (d : Draft) (owner : BlockId) (tree : Tree) (id : BlockId) (e : Draft) : Prop :=
  ∃ t : Chain BlockId, t.erase = tree ∧ t.start = some id ∧ d.Plants e t { parent := some owner }

/-- A block under construction gets another slot. -/
theorem Plants.addSlot {d e f : Draft} {id : BlockId} {node : Node} {slots : Slots BlockId}
    {s : Setting} (h : d.Plants e (.cons id node slots .nil) s) {content : Content Unit}
    {slot : Slot} (hs : e.Stocks id content slot f) (input : String) (hnew : input ∉ slots.names) :
    ∃ c : Content BlockId, c.erase = content ∧
      d.Plants (f.setInput id input slot)
        (.cons id node (slots.append (c.slot input)) .nil) s := by
  obtain ⟨c, rfl, hshows, hgrows, hdesk, hvalue, hshadow⟩ := hs
  have hmem : id ∈ (Chain.cons id node slots .nil).tags := List.mem_cons_self
  have hkeep : e.graph.Keeps f.graph (Chain.cons id node slots .nil).tags :=
    hgrows.keeps fun other hother ↦ ⟨h.mem_blocks hother, by simp⟩
  have hid : id ∉ c.tags := by
    intro hin
    have := h.mem_blocks hmem
    rw [hgrows.new id hin] at this
    cases this
  rw [Content.tags, List.mem_append, not_or] at hid
  refine ⟨c, rfl, ?_, hdesk.trans h.desk, ?_⟩
  · have hset : f.Grows (f.setInput id input slot) [id] [] [] := Grows.update hgrows.fresh id _
    have hall := (h.grows.trans hgrows (by simp)).trans hset (by simp [Chain.tags])
    simpa [Chain.tags, Chain.asked] using hall
  · exact (h.held.keep hkeep).addSlot h.grows.nodup input hnew hshows hvalue hshadow hid.2 hid.1

/-! ### Fields -/

/-- The text of a field is the one that reading gives, found without changing the draft. -/
theorem fieldText_eq (d : Draft) (line : Nat) (command : String) (spec : FieldSpec)
    (raw : String) : (d.fieldText line command spec raw).1 = Reading.fieldText spec raw ∧
      d.Quiet (d.fieldText line command spec raw).2 := by
  have hcheck : ∀ (bad : Bool) (value fallback : String) (e : Draft) (remark : Remark),
      (if bad then (fallback, e.warn line remark) else (value, e)).1 =
          (if bad then fallback else value) ∧
        e.Quiet (if bad then (fallback, e.warn line remark) else (value, e)).2 := by
    intro bad value fallback e remark
    cases bad
    · exact ⟨rfl, Quiet.refl e⟩
    · exact ⟨rfl, Quiet.warn e line remark⟩
  unfold fieldText Reading.fieldText
  cases spec.default? with
  | none =>
    simp only [Option.getD_none, ite_self]
    exact hcheck _ _ _ d _
  | some value =>
    by_cases hr : raw.isEmpty
    · simp only [hr, if_true]
      refine ⟨(hcheck _ _ _ _ _).1, ?_⟩
      exact (Quiet.warn d line _).trans (hcheck _ _ _ _ _).2
    · simp only [hr]
      exact hcheck _ _ _ d _

/-- The field for a text shows that text, and the draft knows the symbol it names. -/
theorem fieldFor_spec {d : Draft} (hd : d.Fresh) (name : String) (symbols : Option SymbolKind)
    (text fallback : String) :
    (Reading.fieldFor name symbols text fallback).field?
        (d.fieldFor symbols text fallback).2.symbols = some (d.fieldFor symbols text fallback).1 ∧
      d.Grows (d.fieldFor symbols text fallback).2 [] []
        (Reading.fieldFor name symbols text fallback).asked ∧
      (d.fieldFor symbols text fallback).2.desk = d.desk := by
  cases symbols with
  | none => exact ⟨rfl, Grows.refl hd, rfl⟩
  | some kind =>
    simp only [Reading.fieldFor, fieldFor, Option.isSome_some, if_true]
    generalize Text.nameOr text fallback = asked
    refine ⟨?_, Grows.intern hd kind asked "", rfl⟩
    simp only [FieldText.field?, Draft.intern, Symbols.lookup?_intern_self, Option.map_some]

/-- A block under construction gets another field. -/
theorem Plants.addField {d e f : Draft} {id : BlockId} {node : Node} {s : Setting}
    (h : d.Plants e (.cons id node .nil .nil) s) (hproc : node.procedure = none)
    {field : Field} {ft : FieldText} (hfield : ft.field? f.symbols = some field)
    (hgrows : e.Grows f [] [] ft.asked) (hdesk : f.desk = e.desk) :
    d.Plants (f.setField id ft.name field)
      (.cons id { node with fields := node.fields ++ [ft] } .nil .nil) s where
  grows := by
    have hset : f.Grows (f.setField id ft.name field) [id] [] [] :=
      Grows.update hgrows.fresh id _
    have hall := (h.grows.trans hgrows (by simp)).trans hset (by simp [Chain.tags])
    simpa [Chain.tags, Chain.asked, Slots.tags, Slots.asked, Node.asked, hproc] using hall
  desk := hdesk.trans h.desk
  held := by
    -- the symbol of the field may have been declared first, and the declaration keeps the node
    have hkeep : e.graph.Keeps f.graph (Chain.cons id node .nil .nil).tags :=
      hgrows.keeps fun other hother ↦ ⟨h.mem_blocks hother, by simp⟩
    refine (h.held.keep hkeep).modify h.grows.nodup _ (fun b hb ↦ ?_) (fun _ ↦ rfl)
      fun b _ hnames hsl ↦ ⟨hnames, hsl⟩
    refine { hb with fields := ?_ }
    have hold := hb.fields
    simp only [Node.fieldDict?, List.foldlM_append, List.foldlM_cons, List.foldlM_nil] at hold ⊢
    rw [hold]
    simp only [Option.bind_eq_bind, Option.bind_some, Node.putField]
    change (ft.field? f.symbols).map _ >>= _ = _
    rw [hfield]
    rfl

/-- Binding fields adds the fields that reading gives to the node. -/
theorem Plants.bindFields {d : Draft} {id : BlockId} {s : Setting} (line : Nat) (command : String)
    (args : Arguments) (specs : List FieldSpec) : ∀ {e : Draft} {node : Node},
    d.Plants e (.cons id node .nil .nil) s → node.procedure = none →
    d.Plants (e.bindFields line command specs args id)
      (.cons id { node with fields := node.fields ++ specs.map (Reading.field args) } .nil .nil)
      s := by
  induction specs with
  | nil =>
    intro e node h _
    simpa [Draft.bindFields] using h
  | cons spec specs ih =>
    intro e node h hproc
    obtain ⟨htext, hquiet⟩ := e.fieldText_eq line command spec (args.read spec.source)
    have hbefore := h.quiet hquiet
    have hnext : d.Plants (bindField line command args id e spec)
        (.cons id { node with fields := node.fields ++ [Reading.field args spec] } .nil .nil)
        s := by
      obtain ⟨hfield, hgrows, hdesk⟩ := fieldFor_spec hbefore.grows.fresh spec.name spec.symbols
        (e.fieldText line command spec (args.read spec.source)).1 (spec.default?.getD "item")
      have := hbefore.addField hproc hfield hgrows hdesk
      rw [htext] at this
      simp only [bindField, htext]
      exact this
    have := ih hnext hproc
    simpa [Draft.bindFields] using this

/-! ### Slots -/

section

variable {d e f : Draft} {owner id : BlockId} {tree : Tree}

/-- A constant stocks a slot without making a block. -/
theorem stocks_literal (owner : BlockId) (hd : d.Fresh) (hq : d.Quiet e) (value : Literal) :
    d.Stocks owner { constant := some value } (.literal value) e :=
  ⟨{ constant := some value }, rfl, ⟨rfl, rfl, rfl⟩, hq.grows hd, hq.desk, trivial, trivial⟩

/-- A value that was made stocks a slot. -/
theorem Embeds.stocks (h : d.Embeds owner tree id e) :
    d.Stocks owner { value := tree } (.block id) e := by
  obtain ⟨t, rfl, hstart, hgrows, hdesk, hheld⟩ := h
  exact ⟨{ value := t }, rfl, ⟨rfl, hstart.symm, rfl⟩, hgrows, hdesk, hheld, trivial⟩

/-- What a slot shows that has nothing but a fallback. -/
def bareSlot : Fallback → Slot
  | .literal value => .literal value
  | .shadow id => .shadow id

/-- A slot with a fallback gets a value. -/
theorem Stocks.cover {content : Content Unit} {fallback : Fallback}
    (h : d.Stocks owner content (bareSlot fallback) e) (h' : e.Embeds owner tree id f) :
    d.Stocks owner { content with value := tree } (.covered id fallback) f := by
  obtain ⟨c, rfl, hshows, hgrows, hdesk, hvalue, hshadow⟩ := h
  obtain ⟨t, rfl, hstart, hgrows', hdesk', hheld⟩ := h'
  have hnil : c.value = .nil := by
    have := hshows.value
    cases hc : c.value with
    | nil => rfl
    | cons => rw [hc] at this; cases fallback <;> cases this
  refine ⟨{ c with value := t }, rfl, ⟨?_, hstart.symm, ?_⟩, ?_, hdesk'.trans hdesk, hheld, ?_⟩
  · have := hshows.constant
    cases fallback <;> exact this
  · have := hshows.shadow
    cases fallback <;> exact this
  · have hall := hgrows.trans hgrows' (by simp)
    simpa [Content.tags, Content.asked, hnil, Chain.tags, Chain.asked] using hall
  · refine hshadow.keep (hgrows'.keeps fun other hother ↦ ⟨?_, by simp⟩)
    exact (hgrows.keys other).2 (.inr (List.mem_append_left _ hother))

end

/-- The fallback of a menu is what reading gives. -/
theorem menuFallback_stocks {d : Draft} (hd : d.Fresh) (line : Nat) (spec : InputSpec)
    (owner : BlockId) (raw : String) :
    d.Stocks owner (Reading.menuFallback spec raw)
      (bareSlot (d.menuFallback line spec owner raw).1) (d.menuFallback line spec owner raw).2 := by
  have hq := Quiet.warnIf d line (spec.menuText raw).2
  unfold Draft.menuFallback Reading.menuFallback
  cases spec.menuOpcode with
  | none => exact stocks_literal owner hd hq _
  | some opcode =>
    have hplant := (Plants.create (hq.grows hd).fresh opcode (.shadow owner)
      (by simp)).quiet_left hd hq
    obtain ⟨hfield, hgrows, hdesk⟩ := fieldFor_spec hplant.grows.fresh
      (spec.menuField.getD spec.name) spec.symbols (spec.menuText raw).1
      (spec.default?.getD "item")
    obtain ⟨hgrows', hdesk', hheld⟩ := hplant.addField rfl hfield hgrows hdesk
    refine ⟨{ shadow := _ }, rfl, ⟨rfl, rfl, rfl⟩, ?_, hdesk', trivial, hheld⟩
    rw [Content.tags, Content.asked, Chain.tags, Chain.asked, List.append_nil, List.append_nil]
    exact hgrows'

end Draft

namespace Build

open Draft

/-- Making the value of a slot agrees with reading it. -/
def Reads (embed : Embed) (read : Reading.Reader) : Prop :=
  ∀ (d : Draft) (text : String) (owner : BlockId) (condition : Bool), d.Fresh →
    Follows (embed text owner condition) d (read text) (d.Embeds owner)

/-- The block `id`, made since the draft `d`, gets a slot. -/
def AddsSlot (d : Draft) (id : BlockId) (node : Node) (slots : Slots BlockId) (s : Setting)
    (input : String) (content : Content Unit) (_ : Unit) (f : Draft) : Prop :=
  ∃ c : Content BlockId, c.erase = content ∧
    d.Plants f (.cons id node (slots.append (c.slot input)) .nil) s

section

variable {embed : Embed} {read : Reading.Reader} {d e : Draft} {id owner : BlockId} {node : Node}
  {slots : Slots BlockId} {s : Setting}

/-! ### Conditions -/

/-- Making an operand agrees with reading it. -/
theorem operand_follows (hr : Reads embed read) (h : d.Plants e (.cons id node slots .nil) s)
    {input : String} (hnew : input ∉ slots.names) (text : String) :
    Follows (operand embed id input text) e (Reading.operand read text)
      (AddsSlot d id node slots s input) := by
  have hfill : ∀ content slot f, e.Stocks id content slot f →
      Follows (modify fun d ↦ d.setInput id input slot) f (.ok content)
        (AddsSlot d id node slots s input) :=
    fun content slot f hs ↦ Follows.modify (h.addSlot hs input hnew)
  unfold operand Reading.operand Reading.isOperandExpression
  by_cases hx : (Call.isShaped text || Text.startsWith text "@") = true
  · simp only [if_pos hx]
    have hvalue : Follows (Slot.block <$> embed (Call.dropMarker text) id false) e
        ((fun tree ↦ { value := tree }) <$> read (Call.dropMarker text)) (e.Stocks id) :=
      (hr e _ id false h.grows.fresh).map fun _ _ _ hemb ↦ hemb.stocks
    exact hvalue.andThen hfill
  · simp only [if_neg hx]
    have hconstant := stocks_literal id h.grows.fresh (Quiet.refl e)
      (Reading.operandLiteral text)
    exact (Follows.ok hconstant).andThen hfill

/-- Making a comparison agrees with reading it. -/
theorem comparison_follows (hr : Reads embed read) (hd : d.Fresh) (opcode left right : String) :
    Follows (comparison embed opcode left right owner) d
      (Reading.comparison read opcode left right) (d.Embeds owner) := by
  unfold comparison
  refine Follows.create_bind ?_
  have hplant := Plants.create hd opcode (.value owner) (by simp)
  refine (operand_follows hr hplant (by simp [Slots.names]) left).bind ?_
  rintro first ⟨⟩ e ⟨c, rfl, hfirst⟩
  refine (operand_follows hr hfirst (by simp [Slots.append]) right).bind ?_
  rintro second ⟨⟩ f ⟨c', rfl, hsecond⟩
  exact Follows.ok ⟨_, rfl, rfl, hsecond⟩

/-- A chain that was planted moves below a block that is made for it. -/
theorem grows_negation {innerId : BlockId} {slots : Slots BlockId} {rest : Chain BlockId}
    (h : d.Plants e (.cons innerId node slots rest) s) (owner : BlockId) :
    d.Grows (((e.create Opcode.not (.value owner)).2.setParent innerId e.nextId).setInput e.nextId
        "OPERAND" (.block innerId))
      [] (e.nextId :: (Chain.cons innerId node slots rest).tags)
      (Chain.cons innerId node slots rest).asked := by
  have hcreate := Plants.create h.grows.fresh Opcode.not (.value owner) (by simp)
  have hmove : (e.create Opcode.not (.value owner)).2.Grows
      ((e.create Opcode.not (.value owner)).2.setParent innerId e.nextId) [innerId] [] [] :=
    Grows.update hcreate.grows.fresh _ _
  have hfill := Grows.update hmove.fresh e.nextId
    fun b ↦ { b with inputs := b.inputs.insert "OPERAND" (.block innerId) }
  have hall := ((h.grows.trans hcreate.grows (by simp)).trans hmove
    (by simp [Chain.tags])).trans hfill (by simp [Chain.tags])
  refine hall.perm ?_ ?_
  · have hperm : ((Chain.cons innerId node slots rest).tags ++ [e.nextId]).Perm
        ([e.nextId] ++ (Chain.cons innerId node slots rest).tags) := List.perm_append_comm
    simpa [Chain.tags, Slots.tags, Content.slot] using hperm
  · simp [Chain.asked, Slots.asked, Node.asked]

/-- A condition moves below the block that negates it. -/
theorem negation_follows {tree : Tree} {inner : BlockId} (h : d.Embeds owner tree inner e) :
    Follows (negation inner owner) e (.ok (Reading.negation tree)) (d.Embeds owner) := by
  obtain ⟨t, rfl, hstart, hplant⟩ := h
  cases t with
  | nil => cases hstart
  | cons innerId node slots rest =>
  obtain rfl := Option.some.inj hstart
  have hcreate := Plants.create hplant.grows.fresh Opcode.not (.value owner) (by simp)
  have hne : e.nextId ∉ (Chain.cons innerId node slots rest).tags := by
    intro hin
    have := hplant.mem_blocks hin
    rw [hplant.grows.fresh.find?_next] at this
    cases this
  -- the condition is still held after the new block was made, and so under its new parent
  have hkept := hplant.held.keep (hcreate.grows.keeps fun other hother ↦
    ⟨hplant.mem_blocks hother, by simp⟩)
  have hmoved := hkept.setParent hplant.grows.nodup e.nextId
  have hnot : (Chain.cons e.nextId { opcode := Opcode.not } .nil .nil).Held
      ((e.create Opcode.not (.value owner)).2.setParent innerId e.nextId).graph
      { parent := some owner } := by
    refine hcreate.held.keep (keeps_update _ _ ?_)
    intro hin
    obtain rfl := List.mem_singleton.1 hin
    exact hne List.mem_cons_self
  have hshows : (Slot.block innerId).Shows none (.cons innerId node slots rest) .nil :=
    ⟨rfl, rfl, rfl⟩
  have hdone := hnot.addSlot (by simp [Chain.tags, Slots.tags]) "OPERAND" (by simp [Slots.names])
    hshows hmoved trivial hne (by simp [Chain.tags])
  unfold negation
  refine Follows.create_bind ?_
  refine Follows.modify_bind ?_
  refine Follows.ok ⟨.cons e.nextId { opcode := Opcode.not }
    (Content.slot { value := .cons innerId node slots rest } "OPERAND") .nil,
    rfl, rfl, ?_, ?_, hdone⟩
  · simpa [Chain.tags, Chain.asked, Slots.tags, Slots.asked, Content.slot, Node.asked] using
      grows_negation hplant owner
  · exact hcreate.desk.trans hplant.desk

/-- Making a comparison in infix form agrees with reading it. -/
theorem comparisonOf_follows (hr : Reads embed read) (hd : d.Fresh) (c : Comparison) :
    Follows (comparisonOf embed c owner) d (Reading.comparisonOf read c) (d.Embeds owner) := by
  have hplain : ∀ opcode, Follows (comparison embed opcode c.left c.right owner) d
      (Reading.comparison read opcode c.left c.right) (d.Embeds owner) :=
    fun opcode ↦ comparison_follows hr hd opcode c.left c.right
  have hnegated : ∀ opcode,
      Follows (comparison embed opcode c.left c.right owner >>= fun inner ↦ negation inner owner) d
        (Reading.negation <$> Reading.comparison read opcode c.left c.right) (d.Embeds owner) := by
    intro opcode
    have hboth : Follows
        (comparison embed opcode c.left c.right owner >>= fun inner ↦ negation inner owner) d
        (Reading.comparison read opcode c.left c.right >>= fun tree ↦ .ok (Reading.negation tree))
        (d.Embeds owner) :=
      (hplain opcode).bind fun tree inner e h ↦ negation_follows h
    cases hc : Reading.comparison read opcode c.left c.right <;> rw [hc] at hboth <;> exact hboth
  unfold comparisonOf Reading.comparisonOf
  cases c.relation with
  | greater => exact hplain _
  | less => exact hplain _
  | equal => exact hplain _
  | sameAs => exact hplain _
  | atLeast => exact hnegated _
  | atMost => exact hnegated _
  | notEqual => exact hnegated _

/-- Making a constant condition agrees with reading it. -/
theorem truthValue_follows (hd : d.Fresh) (value : Bool) :
    Follows (truthValue value owner) d (.ok (Reading.truthValue value)) (d.Embeds owner) := by
  have hplant := Plants.create hd Opcode.equals (.value owner) (by simp)
  obtain ⟨c, hc, hfirst⟩ := hplant.addSlot
    (stocks_literal _ hplant.grows.fresh (Quiet.refl _) (.ofText (if value then "1" else "0")))
    "OPERAND1" (by simp [Slots.names])
  obtain ⟨c', hc', hsecond⟩ := hfirst.addSlot
    (stocks_literal _ hfirst.grows.fresh (Quiet.refl _) (.ofText "1"))
    "OPERAND2" (by simp [Slots.append])
  unfold truthValue
  refine Follows.create_bind ?_
  refine Follows.modify_bind ?_
  refine Follows.ok ⟨_, ?_, rfl, hsecond⟩
  simp [Chain.erase, hc, hc', Slots.append, Reading.truthValue, Reading.block]

/-- Making a condition agrees with reading it. -/
theorem condition_follows (hr : Reads embed read) (hd : d.Fresh) (line : Nat)
    (command raw : String) :
    Follows (condition embed line command raw owner) d (Reading.condition read raw)
      (d.Embeds owner) := by
  unfold condition Reading.condition
  dsimp only
  cases hx : Text.startsWith (Text.trim raw) "@" || Call.isShaped (Text.trim raw) with
  | true => exact hr d _ owner true hd
  | false =>
  rw [if_neg Bool.false_ne_true, if_neg Bool.false_ne_true]
  cases Comparison.split? (Text.trim raw) with
  | some c => exact comparisonOf_follows hr hd c
  | none =>
    dsimp only
    cases hword : Text.lower (Token.unquote (Text.trim raw)) == "true" with
    | true => exact truthValue_follows hd true
    | false =>
    rw [if_neg Bool.false_ne_true]
    split
    · exact truthValue_follows hd false
    · -- a text that is no condition is remarked on and read as false
      have hq := Quiet.warn d line (.expectedCondition command)
      refine Follows.warn_bind ((truthValue_follows (hq.grows hd).fresh false).imp ?_)
      rintro tree id e ⟨t, ht, hstart, hplant⟩
      exact ⟨t, ht, hstart, hplant.quiet_left hd hq⟩

/-! ### Inputs -/

/-- Making the content of a menu agrees with reading it. -/
theorem menuSlot_follows (hr : Reads embed read) (hd : d.Fresh) (line : Nat) (spec : InputSpec)
    (raw : String) :
    Follows (menuSlot embed line spec id raw) d (Reading.menuSlot read spec raw) (d.Stocks id) := by
  unfold menuSlot Reading.menuSlot
  refine Follows.modifyGet_bind ?_
  cases spec.isExpression raw with
  | true =>
    have hfallback := menuFallback_stocks hd line spec id spec.defaultText
    have hfresh : (d.menuFallback line spec id spec.defaultText).2.Fresh := by
      obtain ⟨_, _, _, hgrows, _⟩ := hfallback
      exact hgrows.fresh
    refine (hr _ _ id false hfresh).bind fun tree value f hembeds ↦ Follows.ok ?_
    exact hfallback.cover hembeds
  | false =>
    have hfallback := menuFallback_stocks hd line spec id raw
    refine Follows.ok ?_
    simp only [Bool.false_eq_true, if_false]
    cases hf : (d.menuFallback line spec id raw).1 <;> rw [hf] at hfallback <;> exact hfallback

/-- Making the content of an ordinary slot agrees with reading it. -/
theorem literalSlot_follows (hr : Reads embed read) (hd : d.Fresh) (line : Nat) (command : String)
    (spec : InputSpec) (raw : String) :
    Follows (literalSlot embed line command spec id raw) d
      (Reading.literalSlot read command spec raw) (d.Stocks id) := by
  unfold literalSlot Reading.literalSlot
  cases spec.isExpression raw with
  | true =>
    refine (hr d _ id false hd).bind fun tree value f hembeds ↦ Follows.ok ?_
    have hconstant : d.Stocks id { constant := some (spec.kind.literal spec.defaultText) }
        (bareSlot (.literal (spec.kind.literal spec.defaultText))) d :=
      stocks_literal id hd (Quiet.refl d) _
    exact hconstant.cover hembeds
  | false =>
    cases spec.literalText command raw with
    | mk text remark =>
      refine Follows.modify_bind ?_
      exact Follows.ok (stocks_literal id hd (Quiet.warnIf d line remark) _)

/-- The text of an input is the one that reading gives, found without changing the draft. -/
theorem inputText_eq (d : Draft) (line : Nat) (command : String) (spec : InputSpec)
    (args : Arguments) :
    (d.inputText line command spec args).1 = Reading.inputText spec args ∧
      d.Quiet (d.inputText line command spec args).2 := by
  unfold Draft.inputText Reading.inputText
  generalize (if spec.kind = .boolean then args.readCondition spec.source
    else args.read spec.source) = raw
  cases spec.default? with
  | none => simpa using Quiet.refl d
  | some value =>
    cases hraw : raw.isEmpty
    · simpa [hraw] using Quiet.refl d
    · simpa [hraw] using Quiet.warn d line _

/-- Binding an input adds the slot that reading gives. -/
theorem bindInput_follows (hr : Reads embed read) (h : d.Plants e (.cons id node slots .nil) s)
    (line : Nat) (command : String) (args : Arguments) (spec : InputSpec)
    (hnew : spec.name ∉ slots.names) :
    Follows (bindInput embed line command args id spec) e (Reading.input read command args spec)
      (AddsSlot d id node slots s spec.name) := by
  obtain ⟨htext, hquiet⟩ := inputText_eq e line command spec args
  unfold bindInput
  refine Follows.modifyGet_bind ?_
  rw [htext]
  generalize (e.inputText line command spec args).2 = e' at hquiet
  have h' := h.quiet hquiet
  -- whatever the content is, it goes to the same slot
  have hfill : ∀ content slot f, e'.Stocks id content slot f →
      Follows (modify fun d ↦ d.setInput id spec.name slot) f (.ok content)
        (AddsSlot d id node slots s spec.name) :=
    fun content slot f hs ↦ Follows.modify (h'.addSlot hs spec.name hnew)
  have hliteral : Follows (literalSlot embed line command spec id (Reading.inputText spec args) >>=
        fun slot ↦ modify fun d ↦ d.setInput id spec.name slot) e'
      (Reading.literalSlot read command spec (Reading.inputText spec args))
      (AddsSlot d id node slots s spec.name) :=
    (literalSlot_follows hr h'.grows.fresh line command spec _).andThen hfill
  unfold Reading.input
  cases hkind : spec.kind <;> dsimp only
  case menu => exact (menuSlot_follows hr h'.grows.fresh line spec _).andThen hfill
  case boolean =>
    have hcondition : Follows (Slot.block <$> condition embed line command
          (Reading.inputText spec args) id) e'
        ((fun value ↦ ({ value } : Content Unit)) <$>
          Reading.condition read (Reading.inputText spec args)) (e'.Stocks id) :=
      (condition_follows hr h'.grows.fresh line command _).map fun _ _ _ hemb ↦ hemb.stocks
    exact hcondition.andThen hfill
  case text | number | integer | angle | color => exact hliteral

/-- The inputs of a block are filled one after the other. -/
theorem bindInputs_follows (hr : Reads embed read) (line : Nat) (command : String)
    (args : Arguments) (specs : List InputSpec) : ∀ {e : Draft} {slots : Slots BlockId},
    d.Plants e (.cons id node slots .nil) s → (slots.names ++ specs.map (·.name)).Nodup →
    Follows (specs.forM (bindInput embed line command args id)) e
      (Reading.inputs read command args specs) fun more _ f ↦
        ∃ t : Slots BlockId, t.erase = more ∧ t.names = specs.map (·.name) ∧
          d.Plants f (.cons id node (slots.append t) .nil) s := by
  induction specs with
  | nil =>
    intro e slots h _
    exact Follows.ok ⟨.nil, rfl, rfl, by simpa using h⟩
  | cons spec specs ih =>
    intro e slots h hnd
    rw [List.forM]
    have hnew : spec.name ∉ slots.names := by
      intro hin
      exact (List.nodup_append.1 hnd).2.2 _ hin _ List.mem_cons_self rfl
    refine (bindInput_follows hr h line command args spec hnew).bind ?_
    rintro content ⟨⟩ f ⟨c, rfl, hc⟩
    have hnd' : ((slots.append (c.slot spec.name)).names ++ specs.map (·.name)).Nodup := by
      simpa using hnd
    refine (ih hc hnd').mapResult ?_
    rintro rest ⟨⟩ g ⟨t, rfl, hnames, ht⟩
    refine ⟨(c.slot spec.name).append t, by simp, by simp [hnames], ?_⟩
    rwa [← Slots.append_assoc]

/-- The fields and inputs of a block are filled. -/
theorem bindSlots_follows (hr : Reads embed read) (line : Nat) (command : Command)
    (args : Arguments) {opcode : String} (h : d.Plants e (.cons id { opcode } .nil .nil) s)
    (hnd : (command.inputs.map (·.name)).Nodup) :
    Follows (bindSlots embed line command args id) e
      (Reading.inputs read command.name args command.inputs) fun more _ f ↦
        ∃ t : Slots BlockId, t.erase = more ∧ t.names = command.inputs.map (·.name) ∧
          d.Plants f (.cons id { opcode, fields := command.fields.map (Reading.field args) } t .nil)
            s := by
  unfold bindSlots
  refine Follows.modify_bind ?_
  have hfields := h.bindFields line command.name args command.fields rfl
  refine (bindInputs_follows hr line command.name args command.inputs hfields
    (by simpa [Slots.names] using hnd)).andThen ?_
  rintro more ⟨⟩ f ⟨t, ht, hnames, hplant⟩
  refine Follows.modify ⟨t, ht, hnames, ?_⟩
  simpa [Slots.append] using hplant.quiet (Quiet.useExtension f command.extension?)

end

/-! ### Calls -/

/-- The names of the inputs of every command differ. -/
def HasDistinctInputs (catalog : Catalog) : Prop :=
  ∀ word command, catalog.resolve? word = some command → (command.inputs.map (·.name)).Nodup

/-- A word stands for an expression here when its command is one and is available. -/
theorem expressionCommand_eq_ok {catalog : Catalog} {target : TargetKind} {name : String}
    {c : Command} : expressionCommand catalog target name = .ok c ↔
      catalog.resolve? name = some c ∧ c.kind.isExpression = true ∧
        c.isAvailableOn target = true := by
  unfold expressionCommand
  cases catalog.resolve? name with
  | none => simp
  | some found =>
    dsimp only
    split
    · next hkind =>
      refine ⟨fun h ↦ (by cases h), ?_⟩
      rintro ⟨h, hexpression, -⟩
      obtain rfl := Option.some.inj h
      simp [hexpression] at hkind
    · next hkind =>
      split
      · next havailable =>
        refine ⟨fun h ↦ (by cases h), ?_⟩
        rintro ⟨h, -, hon⟩
        obtain rfl := Option.some.inj h
        simp [hon] at havailable
      · next havailable =>
        refine ⟨fun h ↦ ?_, fun h ↦ congrArg _ (Option.some.inj h.1)⟩
        obtain rfl := Except.ok.inj h
        exact ⟨rfl, by simpa using hkind, by simpa using havailable⟩

/-- Making a call agrees with reading it when making its arguments does. -/
theorem callBlock_reads {embed : Embed} {read : Reading.Reader} (hr : Reads embed read)
    {catalog : Catalog} (hcat : HasDistinctInputs catalog) (target : TargetKind) (line : Nat) :
    Reads (callBlock embed catalog target line) (Reading.call read catalog target line) := by
  intro d text owner condition hd
  unfold callBlock Reading.call
  cases Call.parse text with
  | error value => exact Follows.fail line _
  | ok call =>
    dsimp only
    cases hcommand : expressionCommand catalog target call.name with
    | error fault => exact Follows.fail line fault
    | ok command =>
      have hnd := hcat _ _ (expressionCommand_eq_ok.1 hcommand).1
      -- a warning may come before the block is made, and changes nothing about it
      have hblock : ∀ e, d.Quiet e → Follows (do
            let block ← create command.opcode (.value owner)
            bindSlots embed line command (.ofCall call.args) block
            return block) e (Reading.commandBlock read command (.ofCall call.args))
          (d.Embeds owner) := by
        intro e hq
        refine Follows.create_bind ?_
        have hplant := (Plants.create (hq.grows hd).fresh command.opcode (.value owner)
          (by simp)).quiet_left hd hq
        refine (bindSlots_follows hr line command _ hplant hnd).bind ?_
        rintro more ⟨⟩ f ⟨t, rfl, -, ht⟩
        exact Follows.ok ⟨_, rfl, rfl, ht⟩
      dsimp only
      split
      · refine Follows.warn_bind ?_
        exact hblock _ (Quiet.warn d line _)
      · exact hblock d (Quiet.refl d)

/-- Making the blocks of an expression agrees with reading it. -/
theorem expression_reads {catalog : Catalog} (hcat : HasDistinctInputs catalog)
    (target : TargetKind) (line bound : Nat) :
    Reads (expression catalog target line bound)
      (Reading.expression catalog target line bound) := by
  induction bound with
  | zero => exact fun d text owner condition _ ↦ Follows.fail line _
  | succ bound ih => exact callBlock_reads ih hcat target line

end Build

end BlockScript

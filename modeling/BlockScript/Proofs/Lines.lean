import BlockScript.Catalog.Builtin
import BlockScript.Proofs.Drafting

/-!
# Reading lines and making their blocks

Making the blocks of a line follows reading the line (`Build.line_follows`), for every catalog
whose commands name their slots apart (`Catalog.HasDistinctSlots`). So the draft that the lines of a
target give is the draft of the sheet that reading them gives (`Build.lines_follows`), and where the
one fails the other fails with the same error.
-/

namespace BlockScript

/-! ### Catalogs -/

/-- The names of the inputs that can hold something in the block of a command: its own inputs, and
the sub-chains of a nesting block. A conditional may get a second one later on. -/
def Command.slotNames (c : Command) : List String :=
  c.inputs.map (·.name) ++ if c.kind = .nesting then (Branches.ofCommand c).pending else []

/-- In every command of the catalog, the names of inputs and sub-chains differ. -/
def Catalog.HasDistinctSlots (catalog : Catalog) : Prop :=
  ∀ c ∈ catalog.commands.values, c.slotNames.Nodup

instance (catalog : Catalog) : Decidable catalog.HasDistinctSlots :=
  inferInstanceAs (Decidable (∀ c ∈ catalog.commands.values, c.slotNames.Nodup))

theorem Catalog.mem_builtinCommands {c : Command} (hc : c ∈ builtin.commands.values) :
    c ∈ builtinCommands := by
  obtain ⟨entry, hentry, rfl⟩ := List.mem_map.1 hc
  obtain ⟨c, hmem, rfl⟩ := List.mem_map.1 (Dict.mem_of_mem_ofList hentry)
  exact hmem

/-- The built-in catalog is such. -/
theorem Catalog.builtin_hasDistinctSlots : builtin.HasDistinctSlots := by
  have hall : ∀ c ∈ builtinCommands, c.slotNames.Nodup := by decide +kernel
  exact fun c hc ↦ hall c (mem_builtinCommands hc)

theorem Catalog.mem_values_of_get? {catalog : Catalog} {name : String} {c : Command}
    (h : catalog.get? name = some c) : c ∈ catalog.commands.values :=
  List.mem_map.2 ⟨(name, c), Dict.mem_entries_iff.2 h, rfl⟩

theorem Catalog.mem_values_of_resolve? {catalog : Catalog} {word : String} {c : Command}
    (h : catalog.resolve? word = some c) : c ∈ catalog.commands.values := by
  simp only [resolve?] at h
  cases hget : catalog.get? (normalize word) with
  | some found =>
    rw [hget] at h
    obtain rfl := Option.some.inj h
    exact mem_values_of_get? hget
  | none =>
    rw [hget] at h
    obtain ⟨name, -, hname⟩ := Option.bind_eq_some_iff.1 h
    exact mem_values_of_get? hname

theorem Catalog.HasDistinctSlots.inputs {catalog : Catalog} (h : catalog.HasDistinctSlots) :
    Build.HasDistinctInputs catalog := fun _ c hc ↦
  (List.nodup_append.1 (h c (mem_values_of_resolve? hc))).1

/-! ### Commands that make no statement block -/

namespace Build

open Sheet

variable {σ : Sheet BlockId} {outer : List SymbolTables} {d e : Draft}

theorem closeBlock_follows (h : σ.Drafted outer d) (line : Nat) :
    Follows (closeBlock line) d (σ.finish line) fun τ _ e ↦ τ.Drafted outer e := by
  have hcursor := h.cursor
  unfold closeBlock Sheet.finish
  refine Follows.get_bind ?_
  rcases ho : σ.current with - | ⟨- | ⟨l, ls⟩, c⟩ <;> simp only [Cursor, ho] at hcursor
  · obtain ⟨hscript, hframes⟩ := hcursor
    simp only [hscript, hframes]
    exact Follows.fail line .strayEnd
  · obtain ⟨hframes, -⟩ := hcursor
    have hopen := h.script_isSome
    rw [ho, Option.isSome_some] at hopen
    obtain ⟨last, hlast⟩ := Option.isSome_iff_exists.1 hopen
    simp only [hframes, hlast]
    exact Follows.set ((h.close ho hframes).of_eq rfl rfl rfl rfl hframes.symm rfl)
  · obtain ⟨f, fs, hframes, -, hcursor⟩ := hcursor
    simp only [hframes]
    exact Follows.set (h.pop ho hcursor)

theorem enterElse_follows (h : σ.Drafted outer d) (line : Nat) :
    Follows (enterElse line) d (σ.enterElse line) fun τ _ e ↦ τ.Drafted outer e := by
  have hcursor := h.cursor
  unfold Build.enterElse Sheet.enterElse
  refine Follows.get_bind ?_
  rcases ho : σ.current with - | ⟨- | ⟨l, ls⟩, c⟩ <;> simp only [Cursor, ho] at hcursor
  · simp only [hcursor.2]
    exact Follows.fail line .strayElse
  · simp only [hcursor.1]
    exact Follows.fail line .strayElse
  -- a nesting block is open on both sides, with branches that fit each other
  obtain ⟨f, fs, hframes, hfits, hcursor⟩ := hcursor
  simp only [hframes]
  refine Follows.set_bind ?_
  rcases hfits.branches.enterElse with ⟨fault, hf, hl⟩ | ⟨b, b', hf, hl, hfits', hpending⟩
  · simp only [Layer.enterElse, hf, hl, Except.map]
    exact Follows.fail line fault
  simp only [hf, Layer.enterElse, hl, Except.map]
  have hframe : ∀ node : Node, ({ f with branches := b } : Frame).Fits none
      { l with node, branches := b' } :=
    fun node ↦ ⟨hfits.block, hfits.command, hfits.line, hfits'⟩
  rcases hfits.branches.isIfThen with ⟨body, body', hb, hb'⟩ | ⟨hb, hb'⟩
  · -- a conditional with one branch becomes one with two
    have hgrows : d.Grows ((({ d with frames := fs } : Draft).update f.block
        fun b ↦ { b with opcode := Opcode.ifElse }).openFrame { f with branches := b })
        [l.tag] [] [] := by
      have hupdate := Draft.Grows.update h.fresh l.tag fun b ↦ { b with opcode := Opcode.ifElse }
      rw [hfits.block]
      exact hupdate.trans (Draft.Grows.of_eq hupdate.fresh rfl rfl rfl) (by simp)
    have hasked : Node.asked { l.node with opcode := Opcode.ifElse } = l.node.asked := rfl
    have hdone := h.switch ho hasked hgrows rfl hpending (fun hnd s hheld ↦ ?_) rfl (hframe _)
      hcursor
    · simp only [Layer.elseNode, hb, hb'] at hdone ⊢
      refine Follows.modify_bind ?_
      exact Follows.modify hdone
    · simp only [hfits.block]
      refine hheld.modify hnd _ (fun b hb ↦ ?_) (fun _ ↦ rfl) fun b _ hnames hslots ↦
        ⟨hnames, hslots⟩
      exact { hb with opcode := rfl }
  · -- a conditional that has both branches from the start, which no block has to change for
    have hmoved : d.Grows (({ d with frames := fs } : Draft).openFrame { f with branches := b })
        [] [] [] := Draft.Grows.of_eq h.fresh rfl rfl rfl
    have hdone := h.switch ho rfl (hmoved.weaken (by simp)) rfl hpending (fun _ s hheld ↦ hheld) rfl
      (hframe l.node) hcursor
    have hnode : l.elseNode = l.node := by
      unfold Layer.elseNode
      cases hbr : l.branches <;> first | rfl | exact absurd hbr (hb' _)
    rw [hnode]
    cases hbr : f.branches
    case ifThen => exact absurd hbr (hb _)
    all_goals exact Follows.modify hdone

theorem declare_follows (h : σ.Drafted outer d) (line : Nat) (name : String) (args : List String) :
    Follows (declare line name args) d (σ.declare line name args) fun τ _ e ↦
      τ.Drafted outer e := by
  unfold Build.declare Sheet.declare
  cases declaration? name args with
  | none => exact Follows.fail line _
  | some found => exact Follows.modify (h.declare found.1 _ found.2)

/-- The draft is that of a sheet with these trees. -/
def Makes (outer : List SymbolTables) (σ : Sheet Unit) (_ : Unit) (d : Draft) : Prop :=
  ∃ τ : Sheet BlockId, τ.erase = σ ∧ τ.Drafted outer d

theorem Follows.makes {work : Build Unit} {result : Reading.Result (Sheet BlockId)}
    {result' : Reading.Result (Sheet Unit)}
    (h : Follows work d result fun τ _ e ↦ τ.Drafted outer e) (hr : result.map erase = result') :
    Follows work d result' (Makes outer) := by
  subst hr
  cases h with
  | fails run => exact .fails run
  | yields run fits => exact .yields run ⟨_, rfl, fits⟩

/-! ### Procedures -/

section

variable {head proto : BlockId} {d' : Draft} (hd : d.Fresh) (hhead : d.nextId = head)
  (hd' : (d.create Opcode.definition .entry).2 = d') (hproto : d'.nextId = proto)
  (he : (d'.create Opcode.prototype (.shadow head)).2 = e)
include hd hhead hd' hproto he

/-- The two blocks of a definition are made. -/
theorem grows_definition : d.Grows d' [] [head] [] ∧ d'.Grows e [] [proto] [] := by
  have hfirst : d.Grows d' [] [head] [] := by
    rw [← hd', ← hhead]
    exact Draft.Grows.create hd ..
  refine ⟨hfirst, ?_⟩
  rw [← he, ← hproto]
  exact Draft.Grows.create hfirst.fresh ..

theorem held_prototype {name : String} {symbol : Symbol}
    (hknown : d.symbols.lookup? .procedures name = some symbol) :
    (prototype proto name).Held (e.setProcedure proto symbol.name).graph
      { parent := some head, shadow := true } := by
  obtain ⟨hfirst, hsecond⟩ := grows_definition hd hhead hd' hproto he
  have hheld := d'.held_create Opcode.prototype (.shadow head)
  rw [he, hproto] at hheld
  refine hheld.modify (by simp [Chain.tags, Slots.tags]) _ (fun b hb ↦ ?_) (fun _ ↦ rfl)
    fun b _ hnames hslots ↦ ⟨hnames, hslots⟩
  have hlater : e.symbols.lookup? .procedures name = some symbol :=
    hsecond.symbols _ _ _ (hfirst.symbols _ _ _ hknown)
  refine { hb with procedure := ?_ }
  simp only [Node.procedure?, Draft.graph, hlater, Option.map_some]

theorem held_head :
    (Chain.cons head { opcode := Opcode.definition } .nil .nil).Held e.graph
      { place := some ⟨scriptX, d.nextY⟩ } := by
  obtain ⟨hfirst, hsecond⟩ := grows_definition hd hhead hd' hproto he
  have hheld := d.held_create Opcode.definition .entry
  rw [hd', hhead] at hheld
  refine hheld.keep (hsecond.keeps fun id hid ↦ ⟨(hfirst.keys id).2 (.inr ?_), by simp⟩)
  simpa [Chain.tags, Slots.tags] using hid

/-- The two blocks of a definition are tied together. -/
theorem held_definition {name : String} {symbol : Symbol}
    (hknown : d.symbols.lookup? .procedures name = some symbol) :
    (definition head proto name).Held
        ((e.setInput head "custom_block" (.shadow proto)).setProcedure proto symbol.name).graph
        { place := some ⟨scriptX, d.nextY⟩ } ∧
      d.Grows ((e.setInput head "custom_block" (.shadow proto)).setProcedure proto symbol.name) []
        [head, proto] [] := by
  obtain ⟨hfirst, hsecond⟩ := grows_definition hd hhead hd' hproto he
  have hall : d.Grows e [] [head, proto] [] := hfirst.trans hsecond (by simp)
  have hne : head ≠ proto := by simpa using hall.nodup
  refine ⟨?_, ?_⟩
  · have hnamed := held_prototype hd hhead hd' hproto he hknown
    have hout : proto ∉ (Chain.cons head { opcode := Opcode.definition } .nil .nil).tags := by
      simp [Chain.tags, Slots.tags, hne.symm]
    have hkept := (held_head hd hhead hd' hproto he).keep (Draft.keeps_update e
      (fun b : Block ↦ { b with procedure := some { signature := symbol.name } }) hout)
    have hshows : (Slot.shadow proto).Shows none .nil (prototype proto name) := ⟨rfl, rfl, rfl⟩
    have hdone := hkept.addSlot (by simp [Chain.tags, Slots.tags]) "custom_block"
      (by simp [Slots.names]) hshows trivial hnamed (by simp [Chain.tags])
      (by simp [prototype, Chain.tags, Slots.tags, hne])
    -- the input was set before the name, and the two changes are to different blocks
    have hcomm := e.blocks.modify_comm hne
      (fun b : Block ↦ { b with inputs := b.inputs.insert "custom_block" (.shadow proto) })
      fun b : Block ↦ { b with procedure := some { signature := symbol.name } }
    simp only [Draft.graph, Draft.setInput, Draft.setProcedure, Draft.update, hcomm]
    exact hdone
  · have hfill := hall.trans (Draft.Grows.update hall.fresh head
      fun b ↦ { b with inputs := b.inputs.insert "custom_block" (.shadow proto) }) (by simp)
    exact hfill.trans (Draft.Grows.update hfill.fresh proto _) (by simp)

end

theorem define_follows (h : σ.Drafted outer d) (args : List String) :
    Follows (define args) d (.ok (σ.erase.start (definition () () (Sheet.signature args))))
      (Makes outer) := by
  unfold define Build.signature Sheet.signature
  generalize Text.nameOr (Text.join " " args) SymbolKind.procedures.fallbackName = name
  have hintern := Draft.Grows.intern h.fresh .procedures name ""
  have hknown : (d.intern .procedures name "").2.symbols.lookup? .procedures name =
      some (d.intern .procedures name "").1 := d.symbols.lookup?_intern_self ..
  rw [bind_assoc]
  refine Follows.modifyGet_bind ?_
  rw [pure_bind]
  refine Follows.create_bind ?_
  refine Follows.create_bind ?_
  obtain ⟨hheld, hgrows⟩ := held_definition hintern.fresh rfl rfl rfl rfl hknown
  refine Follows.modify ⟨σ.start (definition (d.intern .procedures name "").2.nextId
    ((d.intern .procedures name "").2.create Opcode.definition .entry).2.nextId name),
    erase_start .., ?_⟩
  have hall := hintern.trans hgrows (by simp)
  exact h.start (hall.trans (Draft.Grows.of_eq hall.fresh rfl rfl rfl)
    (by simp)) hheld nofun rfl rfl
    rfl

/-! ### Statements -/

/-- A new block that starts a script is planted where the next script would be. -/
theorem plants_entry (hd : d.Fresh) (opcode : String) :
    ({ d with nextY := d.nextY + scriptStep } : Draft).Plants (d.create opcode .entry).2
      (.cons d.nextId { opcode } .nil .nil) { place := some ⟨scriptX, d.nextY⟩ } where
  grows := (Draft.Grows.create hd opcode .entry).rebase rfl rfl
  desk := rfl
  held := d.held_create opcode .entry

theorem ensureScript_drafted (h : σ.Drafted outer d) :
    ∃ τ : Sheet BlockId, τ.erase = σ.erase.ensureScript ∧ τ.current.isSome ∧
      τ.Drafted outer d.ensureScript := by
  have hscript := h.script_isSome
  cases ho : σ.current with
  | some o =>
    rw [ho, Option.isSome_some] at hscript
    refine ⟨σ, ?_, by simp [ho], ?_⟩
    · simp [Sheet.ensureScript, Sheet.erase, ho]
    · rw [Draft.ensureScript, if_pos hscript]
      exact h
  | none =>
    rw [ho, Option.isSome_none] at hscript
    have hopened := h.openScript (plants_entry h.fresh Opcode.flagClicked)
    refine ⟨σ.start (.cons d.nextId { opcode := Opcode.flagClicked } .nil .nil), ?_, rfl, ?_⟩
    · simp [Sheet.ensureScript, Sheet.erase, ho, Sheet.start, Sheet.scripts, Chain.erase,
        Slots.erase, OpenScript.erase]
    · rw [Draft.ensureScript, if_neg (by rw [hscript]; exact Bool.false_ne_true)]
      exact hopened

section

variable {embed : Embed} {read : Reading.Reader} (hr : Reads embed read) (h : σ.Drafted outer d)
  (line : Nat) {command : Command} (tokens raw : List String)
include hr h

/-- The block of a hat is made and starts a script. -/
theorem hat_follows (hinputs : (command.inputs.map (·.name)).Nodup) (hhat : command.kind = .hat) :
    Follows (statement embed line command tokens raw) d
      (σ.erase.statement read line command tokens raw) (Makes outer) := by
  unfold Build.statement Sheet.statement
  simp only [hhat, beq_self_eq_true, if_true]
  refine Follows.create_bind ?_
  refine (bindSlots_follows hr line command _ (plants_entry h.fresh command.opcode) hinputs).bind ?_
  rintro more ⟨⟩ e ⟨t, rfl, -, hplant⟩
  refine Follows.modify_bind ?_
  refine Follows.modify ⟨σ.place command line d.nextId (statementNode command tokens raw) t,
    erase_place .., ?_⟩
  have hopened := h.openScript hplant
  simp only [place, hhat, statementNode, reduceCtorEq, if_false]
  exact hopened.of_eq rfl rfl rfl rfl rfl rfl

/-- The block of any other statement is made and appended, and then a nesting block is opened, or a
procedure is named. -/
theorem body_follows (hnd : command.slotNames.Nodup) (hhat : command.kind ≠ .hat)
    (hopen : σ.current.isSome) : Follows (statement embed line command tokens raw) d
      (σ.erase.statement read line command tokens raw) (Makes outer) := by
  have hinputs := (List.nodup_append.1 hnd).1
  obtain ⟨o, ho⟩ := Option.isSome_iff_exists.1 hopen
  unfold Build.statement Sheet.statement
  simp only [beq_eq_false_iff_ne.2 hhat, Bool.false_eq_true, if_false]
  refine Follows.create_bind ?_
  have hnew := Draft.Plants.create h.fresh command.opcode .statement (by simp)
  refine (bindSlots_follows hr line command _ hnew hinputs).bind ?_
  rintro more ⟨⟩ e ⟨t, rfl, hnames, hplant⟩
  refine Follows.modify_bind ?_
  have happ := h.append ho hplant
  have hplaced : ∀ f, (σ.place command line d.nextId (statementNode command tokens raw) t).Drafted
      outer f → Makes outer (σ.erase.place command line () (statementNode command tokens raw)
        t.erase) ⟨⟩ f.countCommand :=
    fun f hf ↦ ⟨_, erase_place .., hf.of_eq rfl rfl rfl rfl rfl rfl⟩
  cases hkind : command.kind
  case hat => exact absurd hkind hhat
  case nesting =>
    refine Follows.modify_bind ?_
    refine Follows.modify (hplaced _ ?_)
    simp only [place, ho, Option.map_some, statementNode, hkind, reduceCtorEq, if_false]
    refine happ.nest command line ?_
    rw [hnames]
    simpa only [Command.slotNames, hkind, if_true] using hnd
  case call =>
    unfold Build.signature
    simp only [bind_assoc, pure_bind]
    refine Follows.modifyGet_bind ?_
    refine Follows.modify_bind ?_
    refine Follows.modify (hplaced _ ?_)
    simp only [place, ho, Option.map_some, statementNode, hkind, if_true, Sheet.signature]
    exact happ.setProcedure rfl _
  all_goals
    refine Follows.modify (hplaced _ ?_)
    simp only [place, ho, Option.map_some, statementNode, hkind, reduceCtorEq, if_false]
    exact happ

/-- The block of a statement is made and put into the script. -/
theorem statement_follows (hnd : command.slotNames.Nodup)
    (hopen : command.kind = .hat ∨ σ.current.isSome) :
    Follows (statement embed line command tokens raw) d
      (σ.erase.statement read line command tokens raw) (Makes outer) := by
  by_cases hhat : command.kind = .hat
  · exact hat_follows hr h line tokens raw (List.nodup_append.1 hnd).1 hhat
  · exact body_follows hr h line tokens raw hnd hhat (hopen.resolve_left hhat)

end

/-! ### Lines -/

/-- Following a command. -/
theorem command_follows {embed : Embed} {read : Reading.Reader} (hr : Reads embed read)
    (h : σ.Drafted outer d) (target : TargetKind) (line : Nat) {c : Command}
    (hnd : c.slotNames.Nodup) (tokens raw : List String) :
    Follows (command embed target line c tokens raw) d
      (σ.erase.command read target line c tokens raw) (Makes outer) := by
  have hnested : σ.erase.isNested = !d.frames.isEmpty := by rw [isNested_erase, h.isNested_eq]
  obtain ⟨τ, hτ, hsome, hdrafted⟩ := ensureScript_drafted h
  unfold Build.command Sheet.command
  rw [hnested, ← hτ]
  cases hkind : c.kind <;> dsimp only
  case finish => exact (closeBlock_follows h line).makes (erase_finish line σ)
  case otherwise => exact (enterElse_follows h line).makes (erase_enterElse line σ)
  case declare => exact (declare_follows h line _ _).makes (erase_declare line _ _ σ)
  -- what is not available is refused, and so is an expression
  all_goals cases c.isAvailableOn target
  case hat.false | stack.false | nesting.false | define.false | call.false | reporter.false |
      boolean.false | reporter.true | boolean.true => exact Follows.fail line _
  case define.true =>
    refine Follows.get_bind ?_
    cases !d.frames.isEmpty with
    | true => exact Follows.fail line _
    | false => exact define_follows h tokens
  case hat.true =>
    refine Follows.get_bind ?_
    cases !d.frames.isEmpty with
    | true => exact Follows.fail line _
    | false => exact statement_follows hr h line tokens raw hnd (.inl hkind)
  case stack.true | nesting.true | call.true =>
    refine Follows.get_bind ?_
    refine Follows.modify_bind ?_
    exact statement_follows hr hdrafted line tokens raw hnd (.inr hsome)

/-- Reading one line. -/
theorem line_follows {catalog : Catalog} (hcat : catalog.HasDistinctSlots) (target : TargetKind)
    (h : σ.Drafted outer d) (source : SourceLine) :
    Follows (line catalog target source) d (σ.erase.line catalog target source) (Makes outer) := by
  unfold Build.line Sheet.line
  dsimp only
  generalize Text.trim source.text = text
  cases text.isEmpty || Text.startsWith text "#" with
  | true => exact Follows.ok ⟨σ, rfl, h⟩
  | false =>
    simp only [Bool.false_eq_true, if_false]
    cases Token.splitLine text with
    | nil => exact Follows.ok ⟨σ, rfl, h⟩
    | cons first raw =>
      dsimp only
      cases hc : catalog.resolve? (Token.unquote first) with
      | none => exact Follows.fail source.line _
      | some c =>
        exact command_follows (expression_reads hcat.inputs target source.line _) h target
          source.line (hcat c (Catalog.mem_values_of_resolve? hc)) _ raw

/-- Reading lines one after the other. -/
theorem forM_line_follows {catalog : Catalog} (hcat : catalog.HasDistinctSlots)
    (target : TargetKind) (sources : List SourceLine) : ∀ {d : Draft} {σ : Sheet Unit},
    Makes outer σ ⟨⟩ d → Follows (sources.forM (line catalog target)) d
      (sources.foldlM (fun σ source ↦ σ.line catalog target source) σ) (Makes outer) := by
  induction sources with
  | nil => exact fun h ↦ Follows.ok h
  | cons source sources ih =>
    rintro d σ ⟨τ, rfl, h⟩
    rw [List.forM, List.foldlM_cons]
    exact (line_follows hcat target h source).bind fun σ _ e hσ ↦ ih hσ

/-- The draft of the lines of a target is the draft of the scripts that these lines are read as,
none of which is left open. -/
theorem lines_follows {catalog : Catalog} (hcat : catalog.HasDistinctSlots) (target : TargetKind)
    (sources : List SourceLine) (ids : IdSource) (outer : List SymbolTables) :
    Follows (lines catalog target sources) { ids, symbols := ⟨{}, outer⟩ }
      (Sheet.read catalog target sources) (Makes outer) := by
  unfold Build.lines Sheet.read
  have hstart : Makes outer {} ⟨⟩ { ids, symbols := ⟨{}, outer⟩ } :=
    ⟨{}, rfl, drafted_empty ids outer⟩
  refine (forM_line_follows hcat target sources hstart).bind ?_
  rintro _ ⟨⟩ e ⟨τ, rfl, h⟩
  refine Follows.get_bind ?_
  have hcursor := h.cursor
  unfold done
  rcases ho : τ.current with - | ⟨- | ⟨l, ls⟩, c⟩ <;> simp only [Cursor, ho] at hcursor
  · simp only [Sheet.erase, ho, hcursor.2]
    exact Follows.ok ⟨τ, by simp [Sheet.erase, ho], h⟩
  · simp only [Sheet.erase, ho, hcursor.1]
    exact Follows.ok ⟨τ, by simp [Sheet.erase, ho], h⟩
  · obtain ⟨f, fs, hframes, hfits, -⟩ := hcursor
    simp only [Sheet.erase, ho, hframes]
    simp only [hfits.line, hfits.command]
    exact Follows.fail l.line _

end Build

/-! ### Targets -/

/-- The name of a single target. -/
def Script.targetName : TargetKind → String
  | .stage => "Stage"
  | .sprite => Header.defaultSprite

/-- Building a target succeeds exactly where its lines can be read, and then the blocks of the
target are those of the scripts that were read. -/
theorem Script.build_reads {catalog : Catalog} (hcat : catalog.HasDistinctSlots) (kind : TargetKind)
    (sources : List SourceLine) :
    (∃ e, Sheet.read catalog kind sources = .error e ∧ build catalog kind sources = .error e) ∨
      ∃ (σ : Sheet BlockId) (d : Draft), Sheet.read catalog kind sources = .ok σ.erase ∧
        build catalog kind sources = .ok (d.finish kind (targetName kind)) ∧ σ.Drafted [] d := by
  have h := Build.lines_follows hcat kind sources {} []
  unfold build draft
  generalize Sheet.read catalog kind sources = result at h ⊢
  cases h with
  | fails run =>
    refine .inl ⟨_, rfl, ?_⟩
    rw [show ({} : Draft) = { ids := {}, symbols := ⟨{}, []⟩ } from rfl, run]
    rfl
  | yields run fits =>
    obtain ⟨σ, rfl, hσ⟩ := fits
    refine .inr ⟨σ, _, rfl, ?_, hσ⟩
    rw [show ({} : Draft) = { ids := {}, symbols := ⟨{}, []⟩ } from rfl, run]
    cases kind <;> rfl

/-- A target that is built is drafted from the scripts that are read. -/
theorem Script.drafted_of_build {catalog : Catalog} (hcat : catalog.HasDistinctSlots)
    {kind : TargetKind} {sources : List SourceLine} {built : TargetBuild}
    (h : build catalog kind sources = .ok built) :
    ∃ (σ : Sheet BlockId) (d : Draft), Sheet.read catalog kind sources = .ok σ.erase ∧
      σ.Drafted [] d ∧ built = d.finish kind (targetName kind) := by
  rcases build_reads hcat kind sources with ⟨e, -, hbuild⟩ | ⟨σ, d, hread, hbuild, hσ⟩
  · cases hbuild.symm.trans h
  · exact ⟨σ, d, hread, hσ, Except.ok.inj (h.symm.trans hbuild)⟩

/-- Where scripts are read, a target is built that is drafted from them. -/
theorem Script.build_of_read {catalog : Catalog} (hcat : catalog.HasDistinctSlots)
    {kind : TargetKind} {sources : List SourceLine} {τ : Sheet Unit}
    (h : Sheet.read catalog kind sources = .ok τ) :
    ∃ (σ : Sheet BlockId) (d : Draft), σ.erase = τ ∧ σ.Drafted [] d ∧
      build catalog kind sources = .ok (d.finish kind (targetName kind)) := by
  rcases build_reads hcat kind sources with ⟨e, herror, -⟩ | ⟨σ, d, hread, hbuild, hσ⟩
  · cases herror.symm.trans h
  · exact ⟨σ, d, Except.ok.inj (hread.symm.trans h), hσ, hbuild⟩

end BlockScript

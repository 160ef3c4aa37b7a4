import BlockScript.Compile
import BlockScript.Proofs.Numbering

/-!
# Symbols and identifiers of a program

The targets of a program are made one after the other, with one sequence of identifiers for all of
them and the tables of the stage in sight of every sprite. What is known of one draft
(`Draft.Orderly`) adds up to what is known of the program (`Program.IsBound`): identifiers differ
over all targets, and a field that should name a symbol names one that its target or the stage
declares. Which table a field is about is said by the catalog; this has to be clear from the
operation code of the block and the name of the field (`Catalog.IsClear`).
-/

namespace BlockScript

/-! ### What is asked of a program -/

/-- The identifiers of the blocks, variables and lists of a target. -/
def Target.serials (t : Target) : List String :=
  t.blocks.keys ++ (t.vars.map Variable.id ++ t.lists.map Symbol.id)

/-- The field is one of a block of the target, and by the catalog it names a symbol of a table. -/
def Target.Refers (catalog : Catalog) (t : Target) (kind : SymbolKind) (field : Field) : Prop :=
  ∃ b ∈ t.blocks.values, ∃ name, b.fields.find? name = some field ∧
    (⟨b.opcode, name, some kind⟩ : Binding) ∈ catalog.bindings

/-- Identifiers and symbols of a program are in order. -/
structure Program.IsBound (catalog : Catalog) (p : Program) : Prop where
  /-- Blocks, variables and lists of all targets have different identifiers. -/
  serials : (p.targets.flatMap Target.serials).Nodup
  /-- A field that names a variable holds the name and identifier of one in sight. -/
  vars : ∀ t ∈ p.targets, ∀ field, t.Refers catalog .vars field →
    ∃ v ∈ t.vars ++ p.stage.vars, field = ⟨v.name, some v.id⟩
  /-- A field that names a list holds the name and identifier of one in sight. -/
  lists : ∀ t ∈ p.targets, ∀ field, t.Refers catalog .lists field →
    ∃ l ∈ t.lists ++ p.stage.lists, field = ⟨l.name, some l.id⟩
  /-- A field that names a broadcast holds the identifier that its text gives, and the stage
  declares a broadcast with it. -/
  broadcasts : ∀ t ∈ p.targets, ∀ field, t.Refers catalog .broadcasts field →
    field.symbol = some (broadcastId field.text) ∧
      broadcastId field.text ∈ p.stage.broadcasts.map Symbol.id
  /-- No variable of a sprite is named like one of the stage. -/
  apartVars : ∀ t ∈ p.sprites, ∀ v ∈ t.vars, ∀ w ∈ p.stage.vars,
    Text.lower v.name ≠ Text.lower w.name
  /-- No list of a sprite is named like one of the stage. -/
  apartLists : ∀ t ∈ p.sprites, ∀ l ∈ t.lists, ∀ m ∈ p.stage.lists,
    Text.lower l.name ≠ Text.lower m.name
  /-- Sprites leave their broadcasts to the stage. -/
  silent : ∀ t ∈ p.sprites, t.broadcasts = []

/-! ### Clear catalogs -/

/-- Fields of the same name in blocks of the same operation code name symbols of the same table, and
a conditional with two branches has no fields. -/
structure Catalog.IsClear (catalog : Catalog) : Prop where
  /-- The table is clear from operation code and name. -/
  symbols : ∀ a ∈ catalog.bindings, ∀ b ∈ catalog.bindings, a.symbols ≠ b.symbols →
    a.opcode = b.opcode → a.field ≠ b.field
  /-- A block that becomes a conditional with two branches brings no fields along. -/
  bare : ∀ a ∈ catalog.bindings, a.opcode ≠ Opcode.ifElse

/-- The fields of the built-in catalog leave no doubt which table they are about. -/
theorem Catalog.builtin_isClear : builtin.IsClear := by
  have hsub : ∀ a ∈ builtin.bindings, a ∈ builtinCommands.flatMap Command.bindings := by
    intro a ha
    obtain ⟨c, hc, hac⟩ := List.mem_flatMap.1 ha
    exact List.mem_flatMap.2 ⟨c, mem_builtinCommands hc, hac⟩
  have hsymbols : ∀ a ∈ builtinCommands.flatMap Command.bindings,
      ∀ b ∈ builtinCommands.flatMap Command.bindings, a.symbols ≠ b.symbols →
        a.opcode = b.opcode → a.field ≠ b.field := by decide +kernel
  have hbare : ∀ a ∈ builtinCommands.flatMap Command.bindings, a.opcode ≠ Opcode.ifElse := by
    decide +kernel
  exact ⟨fun a ha b hb ↦ hsymbols a (hsub a ha) b (hsub b hb), fun a ha ↦ hbare a (hsub a ha)⟩

/-! ### One target -/

namespace Draft

variable {catalog : Catalog} {first : Nat} {outer : List SymbolTables} {d : Draft}

/-- A finished target has the identifiers of its draft. -/
theorem serials_finish (d : Draft) (kind : TargetKind) (name : String) :
    (d.finish kind name).target.serials = d.serials := by
  simp [Target.serials, finish, serials, Symbols.serials, Symbols.declaredVariables,
    Symbols.declared, SymbolTables.get, Function.comp_def]

/-- A field that should name a symbol names one in sight. -/
theorem Orderly.names_of_refers (h : d.Orderly catalog first outer) (hclear : catalog.IsClear)
    {target : Target} (hblocks : target.blocks = d.blocks) {kind : SymbolKind} {field : Field}
    (hrefers : target.Refers catalog kind field) :
    ∃ entry ∈ d.symbols.inSight kind, field.Names entry := by
  obtain ⟨b, hb, name, hfield, hmem⟩ := hrefers
  rw [hblocks] at hb
  obtain ⟨⟨id, b⟩, hentry, rfl⟩ := List.mem_map.1 hb
  obtain ⟨binding, hbinding, hop, hname, hresolves⟩ :=
    h.bound id b (Dict.mem_entries_iff.1 hentry) name field hfield
  have hsame : binding.opcode = b.opcode := hop.resolve_right (hclear.bare _ hmem)
  have hsymbols : binding.symbols = some kind := by
    by_contra hne
    exact hclear.symbols binding hbinding _ hmem hne hsame hname
  exact hresolves kind hsymbols

end Draft

namespace Script

/-- A draft made from lines is orderly. -/
theorem orderly_of_draft {catalog : Catalog} {kind : TargetKind} {sources : List SourceLine}
    {ids : IdSource} {outer : List SymbolTables} {d : Draft}
    (h : draft catalog kind sources { ids, symbols := ⟨{}, outer⟩ } = .ok d) :
    d.Orderly catalog ids.drawn outer := by
  have hevolves : Draft.Evolves catalog kind { ids, symbols := ⟨{}, outer⟩ }
      (run (Build.lines catalog kind sources) { ids, symbols := ⟨{}, outer⟩ }).2 :=
    Build.lines_evolves sources _
  rw [draft_eq] at h
  generalize run (Build.lines catalog kind sources) { ids, symbols := ⟨{}, outer⟩ } = outcome
    at h hevolves
  obtain ⟨error | a, e⟩ := outcome
  · cases h
  · obtain rfl := Except.ok.inj h
    exact Draft.Evolves.invariant (fun _ _ ↦ Draft.Orderly.step) hevolves
      (Draft.orderly_start catalog ids outer)

end Script

/-! ### All targets -/

namespace Compile

variable {catalog : Catalog}

/-- Merging broadcasts keeps an entry for every identifier. -/
theorem mem_ids_mergeBroadcasts {known more : List Symbol} {id : String}
    (h : id ∈ known.map Symbol.id ∨ id ∈ more.map Symbol.id) :
    id ∈ (mergeBroadcasts known more).map Symbol.id := by
  induction more generalizing known with
  | nil => exact h.resolve_right (by simp)
  | cons entry more ih =>
    show id ∈ (mergeBroadcasts (if known.any (·.id == entry.id) then known else known ++ [entry])
      more).map Symbol.id
    refine ih ?_
    rw [List.map_cons, List.mem_cons] at h
    split
    · next hany =>
      obtain ⟨old, hold, heq⟩ := List.any_eq_true.1 hany
      rcases h with h | rfl | h
      · exact .inl h
      · exact .inl (List.mem_map.2 ⟨old, hold, beq_iff_eq.1 heq⟩)
      · exact .inr h
    · simp only [List.map_append, List.map_cons, List.map_nil, List.mem_append,
        List.mem_singleton]
      tauto

/-- The merged broadcasts are those of the stage and of all builds. -/
theorem mem_ids_foldl_mergeBroadcasts {builds : List TargetBuild} {known : List Symbol}
    {id : String}
    (h : id ∈ known.map Symbol.id ∨ ∃ b ∈ builds, id ∈ b.target.broadcasts.map Symbol.id) :
    id ∈ (builds.foldl (fun all b ↦ mergeBroadcasts all b.target.broadcasts) known).map
      Symbol.id := by
  induction builds generalizing known with
  | nil => exact h.resolve_right (by simp)
  | cons build builds ih =>
    refine ih ?_
    rcases h with h | ⟨b, hb, hid⟩
    · exact .inl (mem_ids_mergeBroadcasts (.inl h))
    · rcases List.mem_cons.1 hb with rfl | hb
      · exact .inl (mem_ids_mergeBroadcasts (.inr hid))
      · exact .inr ⟨b, hb, hid⟩

/-- Merging broadcasts adds none but those to be merged. -/
theorem mem_of_mem_mergeBroadcasts {known more : List Symbol} {s : Symbol}
    (h : s ∈ mergeBroadcasts known more) : s ∈ known ∨ s ∈ more := by
  induction more generalizing known with
  | nil => exact .inl h
  | cons entry more ih =>
    rw [List.mem_cons]
    rcases ih h with h | h
    · dsimp only at h
      split at h
      · exact .inl h
      · rw [List.mem_append, List.mem_singleton] at h
        exact h.imp_right .inl
    · exact .inr (.inr h)

/-- A merged broadcast comes from the stage or one of the builds. -/
theorem mem_of_mem_foldl_mergeBroadcasts {builds : List TargetBuild} {known : List Symbol}
    {s : Symbol}
    (h : s ∈ builds.foldl (fun all b ↦ mergeBroadcasts all b.target.broadcasts) known) :
    s ∈ known ∨ ∃ b ∈ builds, s ∈ b.target.broadcasts := by
  induction builds generalizing known with
  | nil => exact .inl h
  | cons build builds ih =>
    rcases ih h with h | ⟨b, hb, hs⟩
    · exact (mem_of_mem_mergeBroadcasts h).imp_right fun h ↦ ⟨build, List.mem_cons_self, h⟩
    · exact .inr ⟨b, List.mem_cons_of_mem _ hb, hs⟩

/-- A sprite is made from a draft of its own, and the next one draws its identifiers after it. -/
theorem sprites_cons_eq_ok {stage : Symbols} {ids : IdSource} {sprite : SpriteSection}
    {rest : List SpriteSection} {built : List (SpriteSection × TargetBuild)}
    (h : sprites catalog stage ids (sprite :: rest) = .ok built) :
    ∃ d others, Script.draft catalog .sprite sprite.lines { ids, symbols := stage.within } = .ok d ∧
      sprites catalog stage d.ids rest = .ok others ∧
      built = (sprite, d.finish .sprite sprite.name) :: others := by
  obtain ⟨d, hdraft, h⟩ := Reading.bind_eq_ok.1 h
  obtain ⟨others, hothers, h⟩ := Reading.bind_eq_ok.1 h
  exact ⟨d, others, hdraft, hothers, (Except.ok.inj h).symm⟩

/-- Every sprite is made from an orderly draft that sees the tables of the stage, and the sprites
draw their identifiers one after the other. -/
theorem orderly_of_sprites {stage : Symbols} {sections : List SpriteSection} {ids : IdSource}
    {built : List (SpriteSection × TargetBuild)}
    (h : sprites catalog stage ids sections = .ok built) :
    (∃ last, Numbered ids.drawn last (built.flatMap fun b ↦ b.2.target.serials)) ∧
    ∀ b ∈ built, ∃ (first : Nat) (d : Draft),
      d.Orderly catalog first stage.within.inherited ∧ b.2 = d.finish .sprite b.1.name := by
  induction sections generalizing ids built with
  | nil =>
    obtain rfl := Except.ok.inj h
    exact ⟨⟨_, .nil _⟩, by simp⟩
  | cons sprite rest ih =>
    obtain ⟨d, others, hdraft, hothers, rfl⟩ := sprites_cons_eq_ok h
    have horderly := Script.orderly_of_draft hdraft
    obtain ⟨⟨last, hnumbered⟩, hall⟩ := ih hothers
    refine ⟨⟨last, ?_⟩, ?_⟩
    · rw [List.flatMap_cons, Draft.serials_finish]
      exact horderly.numbered.append hnumbered
    · rintro b hb
      rcases List.mem_cons.1 hb with rfl | hb
      · exact ⟨_, d, horderly, rfl⟩
      · exact hall b hb

/-- What becomes of a draft of the stage and the drafts of the sprites. -/
theorem ofOutline_eq_ok {outline : Outline} {compiled : Compiled}
    (h : ofOutline catalog outline = .ok compiled) :
    ∃ (d : Draft) (built : List (SpriteSection × TargetBuild)),
      Script.draft catalog .stage outline.stage {} = .ok d ∧
      sprites catalog d.symbols d.ids outline.sprites = .ok built ∧
      compiled.program.sprites = built.map spriteTarget ∧
      compiled.program.stage = { (d.finish .stage "Stage").target with
        broadcasts :=
          (built.map (·.2)).foldl (fun all b ↦ mergeBroadcasts all b.target.broadcasts)
            (d.symbols.declared .broadcasts) } := by
  obtain ⟨d, hdraft, h⟩ := Reading.bind_eq_ok.1 h
  obtain ⟨built, hbuilt, h⟩ := Reading.bind_eq_ok.1 h
  obtain rfl := Except.ok.inj h
  exact ⟨d, built, hdraft, hbuilt, rfl, rfl⟩

/-- The target is made from a draft that sees no tables but those of the stage, and the stage
declares the broadcasts of the draft. -/
structure MadeFrom (catalog : Catalog) (stage : Target) (tables : SymbolTables) (t : Target)
    (d : Draft) : Prop where
  /-- The draft is orderly. -/
  orderly : ∃ first outer, d.Orderly catalog first outer ∧ ∀ table ∈ outer, table = tables
  /-- The blocks are those of the draft. -/
  blocks : t.blocks = d.blocks
  /-- The variables are those that the draft declares. -/
  vars : t.vars = d.symbols.declaredVariables
  /-- The lists are those that the draft declares. -/
  lists : t.lists = d.symbols.declared .lists
  /-- The broadcasts are left to the stage. -/
  broadcasts : ∀ entry ∈ d.symbols.own.broadcasts, entry.id ∈ stage.broadcasts.map Symbol.id

namespace MadeFrom

variable {stage t : Target} {d : Draft} {tables : SymbolTables}

/-- A field that refers to a symbol names one that is declared here or around the target. -/
theorem names_of_refers (h : MadeFrom catalog stage tables t d) (hclear : catalog.IsClear)
    {kind : SymbolKind} {field : Field} (hrefers : t.Refers catalog kind field) :
    ∃ entry, field.Names entry ∧ (entry ∈ d.symbols.own.get kind ∨
      kind.isShared = true ∧ entry ∈ tables.get kind) := by
  obtain ⟨first, outer, horderly, houter⟩ := h.orderly
  obtain ⟨entry, hentry, hnames⟩ := horderly.names_of_refers hclear h.blocks hrefers
  refine ⟨entry, hnames, (Symbols.mem_inSight hentry).imp_right ?_⟩
  rintro ⟨hshared, table, htable, hmem⟩
  rw [horderly.inherited] at htable
  exact ⟨hshared, houter table htable ▸ hmem⟩

/-- A field that refers to a broadcast names one of the stage. -/
theorem broadcast_of_refers (h : MadeFrom catalog stage tables t d) (hclear : catalog.IsClear)
    {field : Field} (hrefers : t.Refers catalog .broadcasts field) :
    field.symbol = some (broadcastId field.text) ∧
      broadcastId field.text ∈ stage.broadcasts.map Symbol.id := by
  obtain ⟨first, outer, horderly, -⟩ := h.orderly
  obtain ⟨entry, rfl, hentry | ⟨hshared, -⟩⟩ := h.names_of_refers hclear hrefers
  · have hid := horderly.settled.broadcasts entry hentry
    exact ⟨congrArg some hid, hid ▸ h.broadcasts entry hentry⟩
  · cases hshared

/-- A name that is declared here is not declared around the target. -/
theorem apart (h : MadeFrom catalog stage tables t d) (hinherited : d.symbols.inherited = [tables])
    {kind : SymbolKind} (hshared : kind.isShared = true) {entry other : Declaration}
    (hentry : entry ∈ d.symbols.own.get kind) (hother : other ∈ tables.get kind) :
    Text.lower entry.name ≠ Text.lower other.name := by
  obtain ⟨first, outer, horderly, -⟩ := h.orderly
  have htables : tables ∈ d.symbols.inherited := hinherited ▸ List.mem_singleton_self tables
  exact (horderly.settled.apart kind hshared entry hentry tables htables other hother).symm

variable {d₀ : Draft} {catalog' : Catalog} {outer : SymbolTables}

/-- A field that refers to a variable names one of the target or of the stage. -/
theorem variable_of_refers (h : MadeFrom catalog stage d₀.symbols.own t d)
    (hstage : MadeFrom catalog' stage outer stage d₀) (hclear : catalog.IsClear) {field : Field}
    (hrefers : t.Refers catalog .vars field) :
    ∃ v ∈ t.vars ++ stage.vars, field = ⟨v.name, some v.id⟩ := by
  obtain ⟨entry, rfl, hentry⟩ := h.names_of_refers hclear hrefers
  refine ⟨⟨entry.id, entry.name, entry.value⟩, ?_, rfl⟩
  rw [h.vars, hstage.vars]
  exact List.mem_append.2 (hentry.imp List.mem_map_of_mem fun h ↦ List.mem_map_of_mem h.2)

/-- A field that refers to a list names one of the target or of the stage. -/
theorem list_of_refers (h : MadeFrom catalog stage d₀.symbols.own t d)
    (hstage : MadeFrom catalog' stage outer stage d₀) (hclear : catalog.IsClear) {field : Field}
    (hrefers : t.Refers catalog .lists field) :
    ∃ l ∈ t.lists ++ stage.lists, field = ⟨l.name, some l.id⟩ := by
  obtain ⟨entry, rfl, hentry⟩ := h.names_of_refers hclear hrefers
  refine ⟨⟨entry.id, entry.name⟩, ?_, rfl⟩
  rw [h.lists, hstage.lists]
  exact List.mem_append.2 (hentry.imp List.mem_map_of_mem fun h ↦ List.mem_map_of_mem h.2)

/-- No variable of a sprite has the name of one of the stage. -/
theorem apart_vars (h : MadeFrom catalog stage d₀.symbols.own t d)
    (hstage : MadeFrom catalog' stage outer stage d₀)
    (hinherited : d.symbols.inherited = [d₀.symbols.own]) {v w : Variable} (hv : v ∈ t.vars)
    (hw : w ∈ stage.vars) : Text.lower v.name ≠ Text.lower w.name := by
  rw [h.vars] at hv
  rw [hstage.vars] at hw
  obtain ⟨entry, hentry, rfl⟩ := List.mem_map.1 hv
  obtain ⟨other, hother, rfl⟩ := List.mem_map.1 hw
  have hshared : SymbolKind.vars.isShared = true := rfl
  exact h.apart hinherited hshared hentry hother

/-- No list of a sprite has the name of one of the stage. -/
theorem apart_lists (h : MadeFrom catalog stage d₀.symbols.own t d)
    (hstage : MadeFrom catalog' stage outer stage d₀)
    (hinherited : d.symbols.inherited = [d₀.symbols.own]) {l m : Symbol} (hl : l ∈ t.lists)
    (hm : m ∈ stage.lists) : Text.lower l.name ≠ Text.lower m.name := by
  rw [h.lists] at hl
  rw [hstage.lists] at hm
  obtain ⟨entry, hentry, rfl⟩ := List.mem_map.1 hl
  obtain ⟨other, hother, rfl⟩ := List.mem_map.1 hm
  have hshared : SymbolKind.lists.isShared = true := rfl
  exact h.apart hinherited hshared hentry hother

end MadeFrom

/-- Every target of a program is made from a draft. -/
theorem madeFrom_of_ofOutline {outline : Outline} {compiled : Compiled}
    (h : ofOutline catalog outline = .ok compiled) :
    ∃ d₀, MadeFrom catalog compiled.program.stage d₀.symbols.own compiled.program.stage d₀ ∧
      (∃ last, Numbered 0 last (compiled.program.targets.flatMap Target.serials)) ∧
      ∀ t ∈ compiled.program.sprites, t.broadcasts = [] ∧
        ∃ d, MadeFrom catalog compiled.program.stage d₀.symbols.own t d ∧
          d.symbols.inherited = [d₀.symbols.own] := by
  obtain ⟨d₀, built, hdraft, hbuilt, hsprites, hstage⟩ := ofOutline_eq_ok h
  have hd₀ : d₀.Orderly catalog 0 [] := Script.orderly_of_draft hdraft
  obtain ⟨⟨last, hnumbered⟩, hall⟩ := orderly_of_sprites hbuilt
  have hwithin : d₀.symbols.within.inherited = [d₀.symbols.own] := by
    rw [Symbols.within, hd₀.inherited]
  refine ⟨d₀, ⟨⟨0, [], hd₀, by simp⟩, ?_, ?_, ?_, fun entry hentry ↦ ?_⟩, ⟨last, ?_⟩, fun t ht ↦ ?_⟩
  · -- the broadcasts of the stage are its own ones and those of all sprites
    rw [hstage]; rfl
  · rw [hstage]; rfl
  · rw [hstage]; rfl
  · rw [hstage]
    refine mem_ids_foldl_mergeBroadcasts (.inl ?_)
    exact List.mem_map.2 ⟨⟨entry.id, entry.name⟩, List.mem_map_of_mem hentry, rfl⟩
  · -- the stage draws its identifiers first, and the sprites go on after it
    have hserials : compiled.program.targets.flatMap Target.serials =
        d₀.serials ++ built.flatMap fun b ↦ b.2.target.serials := by
      rw [Program.targets, List.flatMap_cons, hsprites, List.flatMap_map, hstage,
        ← d₀.serials_finish .stage "Stage"]
      rfl
    rw [hserials]
    exact hd₀.numbered.append hnumbered
  · rw [hsprites] at ht
    obtain ⟨b, hb, rfl⟩ := List.mem_map.1 ht
    obtain ⟨first, d, horderly, hfinish⟩ := hall b hb
    rw [hwithin] at horderly
    refine ⟨rfl, d, ⟨⟨first, _, horderly, by simp⟩, ?_, ?_, ?_, fun entry hentry ↦ ?_⟩,
      horderly.inherited⟩
    · show b.2.target.blocks = d.blocks
      rw [hfinish]; rfl
    · show b.2.target.vars = d.symbols.declaredVariables
      rw [hfinish]; rfl
    · show b.2.target.lists = d.symbols.declared .lists
      rw [hfinish]; rfl
    · rw [hstage]
      refine mem_ids_foldl_mergeBroadcasts (.inr ⟨b.2, List.mem_map_of_mem hb, ?_⟩)
      rw [hfinish]
      exact List.mem_map.2 ⟨⟨entry.id, entry.name⟩, List.mem_map_of_mem hentry, rfl⟩

/-- **Identifiers differ over all targets of a program, and every field that should name a symbol
names one that its target or the stage declares.** -/
theorem isBound_of_ofText {text : String} {compiled : Compiled}
    (h : ofText .builtin text = .ok compiled) : compiled.program.IsBound .builtin := by
  obtain ⟨outline, -, h⟩ := Reading.bind_eq_ok.1 h
  obtain ⟨d₀, hstage, ⟨last, hnumbered⟩, hsprites⟩ := madeFrom_of_ofOutline h
  have hmade : ∀ t ∈ compiled.program.targets,
      ∃ d, MadeFrom .builtin compiled.program.stage d₀.symbols.own t d := by
    intro t ht
    rcases List.mem_cons.1 ht with rfl | ht
    · exact ⟨d₀, hstage⟩
    · obtain ⟨-, d, hd, -⟩ := hsprites t ht
      exact ⟨d, hd⟩
  have hclear := Catalog.builtin_isClear
  refine ⟨hnumbered.nodup, fun t ht field hrefers ↦ ?_, fun t ht field hrefers ↦ ?_,
    fun t ht field hrefers ↦ ?_, fun t ht v hv w hw ↦ ?_, fun t ht l hl m hm ↦ ?_,
    fun t ht ↦ (hsprites t ht).1⟩
  · -- fields first, one kind of symbol after the other, then names
    obtain ⟨d, hd⟩ := hmade t ht
    exact hd.variable_of_refers hstage hclear hrefers
  · obtain ⟨d, hd⟩ := hmade t ht
    exact hd.list_of_refers hstage hclear hrefers
  · obtain ⟨d, hd⟩ := hmade t ht
    exact hd.broadcast_of_refers hclear hrefers
  · obtain ⟨-, d, hd, hinherited⟩ := hsprites t ht
    exact hd.apart_vars hstage hinherited hv hw
  · obtain ⟨-, d, hd, hinherited⟩ := hsprites t ht
    exact hd.apart_lists hstage hinherited hl hm

/-- A stage with a variable, and two sprites: one uses that variable in another spelling and sends a
broadcast, the other declares a variable of its own. -/
def sharedText : String :=
  "stage_code =\n  set_var Score 1\nend\nsprite = Cat\nchange_var score 2\nbroadcast Go\n" ++
    "sprite = Dog\nset_var lives 3\n"

/-- Two sprites that share a variable and a broadcast of the stage are bound to them. -/
theorem isBound_of_ofText_shared :
    ∃ compiled, ofText .builtin sharedText = .ok compiled ∧
      compiled.program.targets.map (·.blocks.size) = [2, 4, 2] ∧
      compiled.program.targets.map (·.vars.map Variable.name) = [["Score"], [], ["lives"]] ∧
      compiled.program.IsBound .builtin := by
  have hmade : (ofText .builtin sharedText).toOption.map (fun compiled ↦
      (compiled.program.targets.map (·.blocks.size),
        compiled.program.targets.map (·.vars.map Variable.name))) =
      some ([2, 4, 2], [["Score"], [], ["lives"]]) := by decide +kernel
  cases hcompile : ofText .builtin sharedText with
  | error e =>
    rw [hcompile] at hmade
    cases hmade
  | ok compiled =>
    rw [hcompile] at hmade
    obtain ⟨hblocks, hvars⟩ := Prod.mk.inj (Option.some.inj hmade)
    exact ⟨compiled, rfl, hblocks, hvars, isBound_of_ofText hcompile⟩

end Compile

end BlockScript

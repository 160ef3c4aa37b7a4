import BlockScript.Proofs.Evolution

/-!
# What a target can hold

Every block of a draft has one of the operation codes that the catalog offers on the target
(`Draft.HoldsOnly`), since every step keeps it so. The built-in catalog offers nothing to the stage
that the stage cannot hold (`Catalog.isStageCompatible_of_mem_opcodes`): not in the menus of its
commands and not in the blocks of the grammar either, of which no command is asked whether it is
available. So the stage holds nothing but what it can, after any lines and also after a line that
stopped half way (`Script.isStageCompatible_of_mem_history`).
-/

namespace BlockScript

/-! ### Operation codes -/

/-- All blocks have operation codes of the list. -/
def Draft.HoldsOnly (opcodes : List String) (d : Draft) : Prop :=
  ∀ id b, d.blocks.find? id = some b → b.opcode ∈ opcodes

namespace Draft.HoldsOnly

variable {opcodes : List String} {d e : Draft}

/-- Other blocks are held only where the blocks change. -/
theorem of_blocks_eq (h : d.HoldsOnly opcodes) (heq : e.blocks = d.blocks) :
    e.HoldsOnly opcodes := by
  rwa [HoldsOnly, heq]

/-- A new block with an allowed operation code may be held. -/
theorem create (h : d.HoldsOnly opcodes) {opcode : String} (hop : opcode ∈ opcodes) (role : Role) :
    (d.create opcode role).2.HoldsOnly opcodes := by
  intro id b hb
  rw [find?_create] at hb
  split at hb
  · obtain rfl := Option.some.inj hb
    cases role <;> exact hop
  · exact h id b hb

/-- A block may change to an allowed operation code. -/
theorem update (h : d.HoldsOnly opcodes) (id : BlockId) {f : Block → Block}
    (hf : ∀ b, b.opcode ∈ opcodes → (f b).opcode ∈ opcodes) :
    (d.update id f).HoldsOnly opcodes := by
  intro other b hb
  change (d.blocks.modify id f).find? other = some b at hb
  rw [Dict.find?_modify] at hb
  split at hb
  · obtain ⟨old, hold, rfl⟩ := Option.map_eq_some_iff.1 hb
    exact hf old (h other old hold)
  · exact h other b hb

/-- A step makes no other blocks than the catalog offers. -/
theorem step {catalog : Catalog} {target : TargetKind} (hstep : Step catalog target d e)
    (h : d.HoldsOnly (catalog.opcodes target)) : e.HoldsOnly (catalog.opcodes target) := by
  cases hstep with
  | create role hop => exact h.create hop role
  | update id f hf => exact h.update id fun b hb ↦ (hf b).1 ▸ hb
  | branch id =>
    have hop : Opcode.ifElse ∈ catalog.opcodes target := Catalog.mem_opcodes_of_grammar (by decide)
    exact h.update id fun _ _ ↦ hop
  | intern kind name initial => exact h.of_blocks_eq rfl
  | bind hid hb text fallback =>
    exact (h.of_blocks_eq (blocks_fieldFor d _ text fallback)).update _ fun _ hb ↦ hb
  | move blocks ids symbols => exact h.of_blocks_eq blocks

end Draft.HoldsOnly

/-- Nothing that the built-in catalog offers to the stage is for sprites only. -/
theorem Catalog.isStageCompatible_of_mem_opcodes {opcode : String}
    (h : opcode ∈ builtin.opcodes .stage) : isStageCompatible opcode = true := by
  have hgrammar : ∀ opcode ∈ Opcode.grammar, isStageCompatible opcode = true := by decide +kernel
  have hstructural : ∀ c ∈ builtinCommands, c.kind.isStructural = true →
      isStageCompatible c.opcode = true := by decide +kernel
  have hmenus : ∀ c ∈ builtinCommands, ∀ opcode ∈ c.inputs.filterMap InputSpec.menuOpcode,
      c.isAvailableOn .stage = true → isStageCompatible opcode = true := by decide +kernel
  rcases List.mem_append.1 h with h | h
  · exact hgrammar opcode h
  · obtain ⟨c, hc, hop⟩ := List.mem_flatMap.1 h
    obtain ⟨hmem, havailable⟩ := List.mem_filter.1 hc
    rcases List.mem_cons.1 hop with rfl | hop
    · rcases Bool.or_eq_true_iff.1 havailable with hkind | hcompatible
      · exact hstructural c (mem_builtinCommands hmem) hkind
      · exact hcompatible
    · exact hmenus c (mem_builtinCommands hmem) opcode hop havailable

/-! ### Histories -/

namespace Script

/-- The drafts that lines lead to which are given a portion at a time: the draft after each line of
a portion, and so on from where the portion ended, be it at a fault. -/
def history (catalog : Catalog) (kind : TargetKind) : Draft → List (List SourceLine) → List Draft
  | d, [] => [d]
  | d, sources :: portions =>
    (sources.inits.map fun front ↦ (run (front.forM (Build.line catalog kind)) d).2) ++
      history catalog kind (run (Build.lines catalog kind sources) d).2 portions

/-- Every draft of a history comes from the first one by steps. -/
theorem evolves_of_mem_history {catalog : Catalog} {kind : TargetKind} {d e : Draft}
    {portions : List (List SourceLine)} (h : e ∈ history catalog kind d portions) :
    d.Evolves catalog kind e := by
  induction portions generalizing d with
  | nil =>
    obtain rfl := List.mem_singleton.1 h
    exact .refl
  | cons sources portions ih =>
    rcases List.mem_append.1 h with h | h
    · obtain ⟨front, -, rfl⟩ := List.mem_map.1 h
      exact Build.sources_evolve front d
    · exact (Build.lines_evolves sources d).trans (ih h)

/-- **The stage never holds a block that it cannot use**, whatever lines it is given in whatever
portions, and whether or not they can be read. -/
theorem isStageCompatible_of_mem_history (ids : IdSource) (symbols : Symbols)
    (portions : List (List SourceLine)) :
    ∀ d ∈ history .builtin .stage { ids, symbols } portions,
      ∀ b ∈ d.blocks.values, isStageCompatible b.opcode = true := by
  intro d hd b hb
  obtain ⟨entry, hentry, rfl⟩ := List.mem_map.1 hb
  have hstart : Draft.HoldsOnly (Catalog.builtin.opcodes .stage) { ids, symbols } :=
    fun _ _ hfind ↦ by cases hfind
  have honly := (evolves_of_mem_history hd).invariant (fun _ _ ↦ Draft.HoldsOnly.step) hstart
  exact Catalog.isStageCompatible_of_mem_opcodes
    (honly entry.1 entry.2 (Dict.mem_entries_iff.1 hentry))

/-- Two portions that both stop at something only sprites have: the first inside an expression whose
blocks are half made, the second at a statement. -/
def strandedPortions : List (List SourceLine) :=
  [[⟨1, "if 1 >= 2"⟩, ⟨2, "wait @add(1, size)"⟩], [⟨3, "else"⟩, ⟨4, "move 10"⟩]]

/-- Nothing that the stage cannot use is left by two portions that both stop at such a block. -/
theorem isStageCompatible_of_mem_history_stranded :
    ∃ d ∈ history .builtin .stage {} strandedPortions,
      d.blocks.values.map Block.opcode = ["event_whenflagclicked", "control_if_else",
        "operator_lt", "operator_not", "control_wait", "operator_add"] ∧
      ∀ b ∈ d.blocks.values, isStageCompatible b.opcode = true := by
  refine ⟨(history .builtin .stage {} strandedPortions).getLast (by decide),
    List.getLast_mem _, ?_, ?_⟩
  · decide +kernel
  · exact isStageCompatible_of_mem_history {} {} strandedPortions _ (List.getLast_mem _)

end Script

end BlockScript

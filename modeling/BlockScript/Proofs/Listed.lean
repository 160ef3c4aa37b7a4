import Mathlib.Data.List.Flatten
import Mathlib.Data.List.Perm.Subperm
import BlockScript.Proofs.Parse
import BlockScript.Proofs.Walk

/-!
# The lines of a target

A walk over a target enters every block of its scripts once, so its listing is the declarations of
the target and the lines of its scripts, as the trees of these scripts give them
(`Sheet.Drafted.targetLines_eq`). Between them there are empty lines only.
-/

namespace BlockScript

variable {catalog : Catalog} {target : TargetKind} {symbols : Symbols}

namespace Listing

/-! ### Scripts -/

variable {t : Target} {b : Block} {node : Node} {s : Setting}

theorem definedSignature_eq {owner tag : BlockId} {name : String}
    (hheld : (Content.slot { shadow := Sheet.prototype tag name } "custom_block").Held
      ⟨t.blocks, symbols⟩ owner b.inputs) :
    definedSignature t b =
      (Content.slot { shadow := Sheet.prototype tag name } "custom_block").signature symbols := by
  obtain ⟨⟨slot, hfind, hslot⟩, -, ⟨prototype, hprototype, hsaid, -⟩, -⟩ := hheld
  have hshadow : slot.shadow? = some tag := hslot.shadow
  have hblock : t.blocks.find? tag = some prototype := hprototype
  simp only [definedSignature, hfind, Option.bind_some, hshadow, hblock, Content.slot,
    Sheet.prototype, Slots.signature, Node.signature?, hsaid.procedure, Option.join_some]
  cases prototype.procedure <;> rfl

/-- The head of a procedure is written as its tree. -/
theorem definition_writes {speak : Speak} {speakChain : SpeakChain} {owner tag : BlockId}
    {name : String} (hsaid : b.Says symbols { opcode := Opcode.definition } s)
    (hheld : (Content.slot { shadow := Sheet.prototype tag name } "custom_block").Held
      ⟨t.blocks, symbols⟩ owner b.inputs) (bodies : List (String × List String)) (depth : Nat) :
    Writes (statement catalog t speak speakChain b depth)
      (Content.slot { shadow := Sheet.prototype tag name } "custom_block").entered
      (Node.lines catalog symbols { opcode := Opcode.definition }
        (Content.slot { shadow := Sheet.prototype tag name } "custom_block") bodies depth) := by
  have hopcode : b.opcode = Opcode.definition := hsaid.opcode
  rw [statement, hopcode, definedSignature_eq hheld]
  exact .pure _

/-- A walk writes a held script. -/
theorem script_writes (hcat : catalog.IsRegular) {c : Chain BlockId}
    (hscript : c.IsScript catalog target) {bound : Nat} (hheld : c.Held ⟨t.blocks, symbols⟩ s)
    (hbound : c.entered.length ≤ bound) :
    SpeaksChain catalog symbols (chain catalog t bound) c := by
  cases c with
  | nil => exact hscript.elim
  | cons tag node slots rest =>
    obtain ⟨hhead, hbody⟩ := hscript
    obtain ⟨b, hb, hsaid, hnext, hnames, hslots, hrest⟩ := hheld
    simp only [Chain.entered, List.length_cons, List.length_append] at hbound
    cases bound with
    | zero => omega
    | succ bound =>
      refine chain_cons hb hnext (fun depth ↦ ?_)
        (body_writes hcat hbody bound _ hrest (by omega))
      have hinner : slots.entered.length ≤ bound := by omega
      rcases hhead with ⟨c, hmem, hkind, havailable, hnode, hfill⟩ | ⟨rfl, tag', name, -, rfl⟩
      · have hback : (Slots.nil : Slots BlockId).Fill catalog target
            (Opcode.isComparison c.opcode) [] c.branchNames := trivial
        have hnil : SpeaksChain catalog symbols (chain catalog t bound) .nil := chain_none bound
        have hwrites := header_writes hcat (by rw [hkind]; rfl)
          ⟨hmem, havailable, hnode, hfill, hback⟩ hsaid (by simpa using hnames)
          (by simpa using hslots) (inputs_speak hcat hfill hslots hinner) trivial hnil depth
        simpa using hwrites
      · exact definition_writes hsaid hslots _ depth

theorem chains_write {β : Type} {work : BlockId → Writer β} {out : Chain BlockId → β} :
    ∀ {cs : List (Chain BlockId)},
      (∀ c ∈ cs, ∃ id, c.start = some id ∧ Writes (work id) c.entered (out c)) →
      Writes ((cs.filterMap Chain.start).mapM work) (cs.flatMap Chain.entered) (cs.map out)
  | [], _ => .pure _
  | c :: cs, h => by
    obtain ⟨id, hid, hfirst⟩ := h c List.mem_cons_self
    have hrest := chains_write fun c' hc' ↦ h c' (List.mem_cons_of_mem _ hc')
    rw [List.filterMap_cons_some hid, List.mapM_cons, List.flatMap_cons]
    refine hfirst.bind ?_
    rw [← List.append_nil (cs.flatMap Chain.entered)]
    exact hrest.bind (.pure _)

/-! ### Empty lines -/

/-- The lines that are not empty. -/
def inked (lines : List String) : List String :=
  lines.filter (!·.isEmpty)

theorem inked_append (lines more : List String) :
    inked (lines ++ more) = inked lines ++ inked more :=
  List.filter_append ..

theorem inked_dropTrailingBlank (lines : List String) :
    inked (dropTrailingBlank lines) = inked lines := by
  have hblank : inked (lines.reverse.takeWhile String.isEmpty) = [] := by
    refine List.filter_eq_nil_iff.2 fun line hline ↦ ?_
    simpa using List.mem_takeWhile_imp hline
  have hsplit := congrArg inked
    (List.takeWhile_append_dropWhile (p := String.isEmpty) (l := lines.reverse))
  rw [inked_append, hblank, List.nil_append] at hsplit
  rw [dropTrailingBlank, inked, List.filter_reverse]
  change (inked _).reverse = _
  rw [hsplit, inked, List.filter_reverse, List.reverse_reverse]
  rfl

theorem inked_appendScript (lines script : List String) :
    inked (appendScript lines script) = inked lines ++ inked script := by
  unfold appendScript
  split
  · next h =>
    rw [List.isEmpty_iff.1 h]
    simp [inked]
  · split
    · split
      · exact inked_append lines script
      · rw [inked_append]
        rfl
    · next h =>
      rw [List.getLast?_eq_none_iff.1 h]
      rfl

theorem inked_foldl_appendScript : ∀ (scripts : List (List String)) (lines : List String),
    inked (scripts.foldl appendScript lines) = inked (lines ++ scripts.flatten)
  | [], lines => by simp
  | script :: scripts, lines => by
    rw [List.foldl_cons, inked_foldl_appendScript scripts, List.flatten_cons, inked_append,
      inked_appendScript, inked_append, inked_append, List.append_assoc]

end Listing

/-! ### Targets -/

/-- No script starts with a prototype. -/
theorem Chain.IsScript.head (hcat : catalog.IsRegular) : ∀ {c : Tree}, c.IsScript catalog target →
    ∃ node slots rest, c = .cons () node slots rest ∧ node.opcode ≠ Opcode.prototype
  | .cons _ node slots rest, ⟨.inl ⟨c, hmem, hkind, _, hnode, _⟩, _⟩ => by
    refine ⟨node, slots, rest, rfl, fun hprototype ↦ (hcat.regular c hmem).prototype ?_⟩
    rw [(hcat.regular c hmem).opcode?_eq (by rw [hkind]; rfl), ← hnode.opcode, hprototype]
  | .cons _ node slots rest, ⟨.inr ⟨hnode, _⟩, _⟩ => ⟨node, slots, rest, rfl, by rw [hnode]; decide⟩

namespace Sheet.Drafted

variable {σ : Sheet BlockId} {outer : List SymbolTables} {d : Draft}

theorem isScript_of_mem (hscripts : ∀ c ∈ σ.erase.scripts, c.IsScript catalog target)
    {c : Chain BlockId} (hc : c ∈ σ.scripts) : c.IsScript catalog target := by
  refine Chain.IsScript.of_erase (hscripts _ ?_)
  rw [erase_scripts]
  exact List.mem_map_of_mem hc

/-- No script has more blocks than the target. -/
theorem length_entered_le (h : σ.Drafted outer d) {c : Chain BlockId} (hc : c ∈ σ.scripts) :
    c.entered.length ≤ d.blocks.size := by
  have hsub : c.tags ⊆ d.blocks.keys := by
    intro id hid
    have hsome := (h.keys id).2 (List.mem_flatMap.2 ⟨c, hc, hid⟩)
    exact Dict.mem_keys_iff.2 (Option.isSome_iff_exists.1 hsome)
  have hnodup : c.tags.Nodup := (List.nodup_flatMap.1 h.nodup).1 c hc
  calc c.entered.length ≤ c.tags.length := c.entered_sublist.length_le
    _ ≤ d.blocks.keys.length := (List.subperm_of_subset hnodup hsub).length_le
    _ = d.blocks.size := List.length_map ..

/-- The entry points of a target whose scripts have the shape of scripts. -/
theorem roots_of_isScript (hcat : catalog.IsRegular) (h : σ.Drafted outer d)
    (hscripts : ∀ c ∈ σ.erase.scripts, c.IsScript catalog target) (name : String) :
    (d.finish target name).target.roots = σ.scripts.filterMap Chain.start :=
  h.roots target name fun _ _ ↦ h.opcode_ne_prototype fun script hscript ↦
    (hscripts script hscript).head hcat

/-- **A walk over a target writes its scripts**: it enters every block of them but the shadows, and
remarks on nothing. -/
theorem scripts_write (hcat : catalog.IsRegular) (h : σ.Drafted outer d)
    (hscripts : ∀ c ∈ σ.erase.scripts, c.IsScript catalog target) {t : Target}
    (ht : t.blocks = d.blocks) :
    Listing.Writes (Listing.scripts catalog t) (σ.scripts.flatMap Chain.entered)
      (σ.scripts.map (·.lines catalog d.symbols 0)) := by
  have hroots : t.roots = σ.scripts.filterMap Chain.start := by
    rw [← h.roots_of_isScript hcat hscripts "", Target.roots, ht]
    rfl
  rw [Listing.scripts, hroots]
  refine Listing.chains_write fun c hc ↦ ?_
  obtain ⟨i, hi⟩ := List.mem_iff_getElem?.1 hc
  obtain ⟨id, -, hstart, -⟩ := h.exists_entry hi
  have hheld := h.held i c hi
  have hlength := h.length_entered_le hc
  rw [Draft.graph, ← ht] at hheld
  rw [← ht] at hlength
  have hspeaks := Listing.script_writes hcat (isScript_of_mem hscripts hc) hheld hlength
  exact ⟨id, hstart, hstart ▸ hspeaks 0⟩

theorem nodup_entered (h : σ.Drafted outer d) : (σ.scripts.flatMap Chain.entered).Nodup :=
  h.nodup.sublist (List.Sublist.flatMap_right _ fun c _ ↦ c.entered_sublist)

/-- **A listing holds the declarations of the target and the lines of its scripts**, apart from
empty lines. -/
theorem targetLines_eq (hcat : catalog.IsRegular) (h : σ.Drafted outer d)
    (hscripts : ∀ c ∈ σ.erase.scripts, c.IsScript catalog target) (name : String) :
    Listing.inked (Listing.targetLines catalog (d.finish target name).target).1 =
      Listing.inked (Listing.declarationLines (d.finish target name).target ++
        (σ.scripts.map (·.lines catalog d.symbols 0)).flatten) := by
  rw [Listing.targetLines, h.scripts_write hcat hscripts rfl {} h.nodup_entered]
  rw [Listing.inked_dropTrailingBlank, Listing.inked_foldl_appendScript]

end Sheet.Drafted

end BlockScript

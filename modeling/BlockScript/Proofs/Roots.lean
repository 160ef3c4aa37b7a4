import BlockScript.Proofs.Forest

/-!
# The order of scripts

Scripts are placed one below the other as they are written, so the entry points of a target, sorted
by their places, are the first blocks of its scripts in the order in which these were written
(`Sheet.Drafted.roots`).
-/

namespace BlockScript

/-! ### Places -/

namespace Target

variable {a b c : BlockId × Block}

theorem comesBefore_iff : comesBefore a b = true ↔ (placeOf a.2).y < (placeOf b.2).y ∨
    (placeOf a.2).y = (placeOf b.2).y ∧ (placeOf a.2).x ≤ (placeOf b.2).x := by
  simp [comesBefore]

theorem comesBefore_trans (hab : comesBefore a b = true) (hbc : comesBefore b c = true) :
    comesBefore a c = true := by
  rw [comesBefore_iff] at *
  omega

theorem comesBefore_total (a b : BlockId × Block) :
    (comesBefore a b || comesBefore b a) = true := by
  rw [Bool.or_eq_true, comesBefore_iff, comesBefore_iff]
  omega

end Target

namespace Sheet.Drafted

variable {σ : Sheet BlockId} {outer : List SymbolTables} {d : Draft}

/-- A script starts with a block at the height of the script. -/
theorem exists_entry (h : σ.Drafted outer d) {i : Nat} {c : Chain BlockId}
    (hi : σ.scripts[i]? = some c) : ∃ id b, c.start = some id ∧ d.blocks.find? id = some b ∧
      b.parent = none ∧ b.place = some ⟨scriptX, scriptHeight i⟩ ∧ b.shadow = false := by
  have hne := h.filled c (List.mem_of_getElem? hi)
  have hheld := h.held i c hi
  match c, hne with
  | .cons id node slots rest, _ =>
    have hstart : (Chain.cons id node slots rest).start = some id := rfl
    obtain ⟨b, hb, hparent, hplace, hshadow⟩ := hheld.start_setting hstart
    exact ⟨id, b, rfl, hb, hparent, hplace, hshadow⟩

/-- A block at the top level starts a script. -/
theorem exists_script_of_isTopLevel (h : σ.Drafted outer d) {id : BlockId} {b : Block}
    (hb : d.blocks.find? id = some b) (htop : b.isTopLevel = true) :
    ∃ (i : Nat) (c : Chain BlockId), σ.scripts[i]? = some c ∧ c.start = some id := by
  obtain ⟨c, hc, hmem⟩ := List.mem_flatMap.1 ((h.keys id).1 (Option.isSome_iff_exists.2 ⟨b, hb⟩))
  obtain ⟨i, hi⟩ := List.mem_iff_getElem?.1 hc
  obtain ⟨top, hstart, hreach⟩ := (h.held i c hi).reaches id hmem
  rcases hreach.cases_tail with rfl | ⟨holder, -, spot, hrefers⟩
  · exact ⟨i, c, hi, hstart⟩
  · -- what is referred to has no place of its own
    obtain ⟨-, hplace, -⟩ := h.isChild hb hrefers
    rw [htop] at hplace
    cases hplace

theorem scriptHeight_lt {i j : Nat} (h : i < j) : scriptHeight i < scriptHeight j := by
  simp only [scriptHeight, scriptStep]
  omega

theorem scriptHeight_injective : Function.Injective scriptHeight := by
  intro i j h
  simp only [scriptHeight, scriptStep] at h
  omega

/-- The first blocks of the scripts, each with its identifier. -/
def entries (σ : Sheet BlockId) (d : Draft) : List (BlockId × Block) :=
  σ.scripts.filterMap fun c ↦ c.start.bind fun id ↦ (d.blocks.find? id).map (Prod.mk id)

theorem map_fst_entries (h : σ.Drafted outer d) :
    (entries σ d).map Prod.fst = σ.scripts.filterMap Chain.start := by
  rw [entries, List.map_filterMap]
  refine List.filterMap_congr fun c hc ↦ ?_
  obtain ⟨i, hi⟩ := List.mem_iff_getElem?.1 hc
  obtain ⟨id, b, hstart, hb, -⟩ := h.exists_entry hi
  simp [hstart, hb]

theorem mem_entries (h : σ.Drafted outer d) {entry : BlockId × Block}
    (hentry : entry ∈ entries σ d) : ∃ i c, σ.scripts[i]? = some c ∧ c.start = some entry.1 ∧
      d.blocks.find? entry.1 = some entry.2 ∧
      Target.placeOf entry.2 = ⟨scriptX, scriptHeight i⟩ := by
  obtain ⟨c, hc, hsome⟩ := List.mem_filterMap.1 hentry
  obtain ⟨i, hi⟩ := List.mem_iff_getElem?.1 hc
  obtain ⟨id, b, hstart, hb, -, hplace, -⟩ := h.exists_entry hi
  simp only [hstart, hb, Option.bind_some, Option.map_some, Option.some.injEq] at hsome
  subst hsome
  exact ⟨i, c, hi, hstart, hb, by simp [Target.placeOf, hplace]⟩

/-- Scripts come from top to bottom. -/
theorem entries_pairwise (h : σ.Drafted outer d) :
    (entries σ d).Pairwise fun a b ↦ (Target.placeOf a.2).y < (Target.placeOf b.2).y := by
  rw [entries, List.pairwise_filterMap, List.pairwise_iff_getElem]
  intro i j hi hj hij a ha b hb
  obtain ⟨id, block, hstart, hblock, -, hplace, -⟩ := h.exists_entry (List.getElem?_eq_getElem hi)
  obtain ⟨id', block', hstart', hblock', -, hplace', -⟩ :=
    h.exists_entry (List.getElem?_eq_getElem hj)
  simp only [hstart, hblock, Option.bind_some, Option.map_some, Option.some.injEq] at ha
  simp only [hstart', hblock', Option.bind_some, Option.map_some, Option.some.injEq] at hb
  subst ha hb
  simpa [Target.placeOf, hplace, hplace'] using scriptHeight_lt hij

/-- The entry points of a target, before they are sorted, are the starts of its scripts in some
order. -/
theorem perm_entries (h : σ.Drafted outer d)
    (hprototype : ∀ id b, d.blocks.find? id = some b → b.isTopLevel = true →
      b.opcode ≠ Opcode.prototype) :
    (d.blocks.entries.filter fun e ↦ Target.isRoot e.2).Perm (entries σ d) := by
  have hkeys : (d.blocks.entries.map Prod.fst).Nodup := d.blocks.keys_nodup
  have hnodup : (entries σ d).Nodup := h.entries_pairwise.imp fun hab heq ↦ by
    rw [heq] at hab
    exact Int.lt_irrefl _ hab
  -- both lists are without repetition, so it is enough to compare their members
  refine (List.perm_ext_iff_of_nodup (hkeys.of_map.filter _) hnodup).2 ?_
  rintro ⟨id, b⟩
  rw [List.mem_filter, Dict.mem_entries_iff]
  constructor
  · rintro ⟨hb, hroot⟩
    simp only [Target.isRoot, Bool.and_eq_true] at hroot
    obtain ⟨i, c, hi, hstart⟩ := h.exists_script_of_isTopLevel hb hroot.1.1.2
    exact List.mem_filterMap.2 ⟨c, List.mem_of_getElem? hi, by simp [hstart, hb]⟩
  · intro hentry
    obtain ⟨i, c, hi, hstart, hb, -⟩ := h.mem_entries hentry
    obtain ⟨id', b', hstart', hb', hparent, hplace, hshadow⟩ := h.exists_entry hi
    obtain rfl := Option.some.inj (hstart.symm.trans hstart')
    obtain rfl := Option.some.inj (hb.symm.trans hb')
    dsimp only at hb hparent hplace hshadow
    have htop : b.isTopLevel = true := by simp [Block.isTopLevel, hplace]
    exact ⟨hb, by simp [Target.isRoot, hshadow, htop, hparent, hprototype _ b hb htop]⟩

/-- Two scripts at the same height are one. -/
theorem entries_antisymm (h : σ.Drafted outer d) {a b : BlockId × Block}
    (ha : a ∈ entries σ d) (hb : b ∈ entries σ d) (hab : Target.comesBefore a b = true)
    (hba : Target.comesBefore b a = true) : a = b := by
  obtain ⟨i, c, hi, hstart, hfind, hplace⟩ := h.mem_entries ha
  obtain ⟨j, c', hj, hstart', hfind', hplace'⟩ := h.mem_entries hb
  rw [Target.comesBefore_iff, hplace, hplace'] at hab hba
  dsimp only at hab hba
  have hheight : scriptHeight i = scriptHeight j := by omega
  obtain rfl := scriptHeight_injective hheight
  obtain rfl := Option.some.inj (hi.symm.trans hj)
  have hid : a.1 = b.1 := Option.some.inj (hstart.symm.trans hstart')
  rw [hid] at hfind
  exact Prod.ext hid (Option.some.inj (hfind.symm.trans hfind'))

/-- The entry points of a target are the first blocks of its scripts, in their order. -/
theorem roots (h : σ.Drafted outer d) (kind : TargetKind) (name : String)
    (hprototype : ∀ id b, d.blocks.find? id = some b → b.isTopLevel = true →
      b.opcode ≠ Opcode.prototype) :
    (d.finish kind name).target.roots = σ.scripts.filterMap Chain.start := by
  rw [← h.map_fst_entries, Target.roots]
  refine congrArg _ ?_
  have hperm := (List.mergeSort_perm _ Target.comesBefore).trans (h.perm_entries hprototype)
  have hmerged : ((d.blocks.entries.filter fun e ↦ Target.isRoot e.2).mergeSort
      Target.comesBefore).Pairwise fun a b ↦ Target.comesBefore a b = true := by
    refine List.pairwise_mergeSort ?_ Target.comesBefore_total _
    exact fun _ _ _ ↦ Target.comesBefore_trans
  -- two sorted lists of the same entries are the same list
  refine List.Perm.eq_of_pairwise ?_ hmerged ?_ hperm
  · exact fun a b ha hb ↦ h.entries_antisymm (hperm.mem_iff.1 ha) hb
  · exact h.entries_pairwise.imp fun hab ↦ Target.comesBefore_iff.2 (.inl hab)

end Sheet.Drafted

end BlockScript

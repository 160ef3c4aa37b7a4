import BlockScript.Proofs.Adding

/-!
# Where the next block goes

The cursors of a draft never point at a place that is taken (`Draft.Poised`): the last block of
every open chain has no successor, and a branch that is empty or still to come is not among the
inputs of its block. So a block that is appended is tied to one that was there before without
overwriting anything (`Draft.IsReady.append`): that one gets a successor, or the first block of a
branch. What a line may do to the blocks before it is `Draft.Appends`.
-/

namespace BlockScript

/-! ### Branches of open blocks -/

namespace Branches

variable {branches : Branches} {b b' : Block}

/-- The names of the branches that are still to come. -/
def later : Branches → List String
  | single _ => []
  | ifThen _ => ["SUBSTACK2"]
  | ifElse _ otherwise false => [otherwise.input]
  | ifElse _ _ true => []

theorem pending_eq (branches : Branches) :
    branches.pending = branches.active.input :: branches.later := by
  cases branches with
  | single body | ifThen body => rfl
  | ifElse body otherwise inElse => cases inElse <;> rfl

theorem active_extend (branches : Branches) (id : BlockId) :
    (branches.extend id).active = { branches.active with last := some id } := by
  cases branches with
  | single body | ifThen body => rfl
  | ifElse body otherwise inElse => cases inElse <;> rfl

theorem later_extend (branches : Branches) (id : BlockId) :
    (branches.extend id).later = branches.later := by
  cases branches with
  | single body | ifThen body => rfl
  | ifElse body otherwise inElse => cases inElse <;> rfl

/-- The branches fit the block that they belong to: what is not yet filled is not there yet. -/
structure Suits (branches : Branches) (b : Block) : Prop where
  active : branches.active.last = none → b.inputs.find? branches.active.input = none
  later : ∀ name ∈ branches.later, name ≠ branches.active.input ∧ b.inputs.find? name = none
  opcode : ∀ body, branches = .ifThen body → b.opcode = Opcode.ifThen
  empty : ∀ body otherwise, branches = .ifElse body otherwise false → otherwise.last = none

/-- Only the active branch may be filled. -/
theorem Suits.extend (h : branches.Suits b) (id : BlockId) (hopcode : b'.opcode = b.opcode)
    (hinputs : ∀ name, name ≠ branches.active.input → b'.inputs.find? name = b.inputs.find? name) :
    (branches.extend id).Suits b' where
  active hlast := by
    rw [active_extend] at hlast
    exact absurd hlast nofun
  later name hname := by
    rw [later_extend] at hname
    obtain ⟨hne, habsent⟩ := h.later name hname
    rw [active_extend]
    exact ⟨hne, (hinputs name hne).trans habsent⟩
  opcode body hbody := by
    cases branches with
    | ifThen body' => exact hopcode.trans (h.opcode body' rfl)
    | single _ => exact absurd hbody nofun
    | ifElse _ _ inElse => cases inElse <;> exact absurd hbody nofun
  empty body otherwise hbody := by
    cases branches with
    | ifElse body' otherwise' inElse =>
      cases inElse with
      | false =>
        obtain ⟨-, rfl⟩ : _ ∧ otherwise' = otherwise := by simpa [Branches.extend] using hbody
        exact h.empty body' otherwise' rfl
      | true => simp [Branches.extend] at hbody
    | single _ | ifThen _ => exact absurd hbody nofun

/-- The branch that an else opens is one that was to come. -/
theorem Suits.enterElse (h : branches.Suits b) {after : Branches}
    (hafter : branches.enterElse = .ok after) (hinputs : b'.inputs = b.inputs) :
    after.Suits b' ∧ after.active.last = none := by
  obtain ⟨body, otherwise, rfl, hlast, hlater⟩ : ∃ body otherwise,
      after = .ifElse body otherwise true ∧ otherwise.last = none ∧
        otherwise.input ∈ branches.later := by
    cases branches with
    | single body => exact absurd hafter nofun
    | ifThen body => exact ⟨body, _, (Except.ok.inj hafter).symm, rfl, List.mem_singleton_self _⟩
    | ifElse body otherwise inElse =>
      cases inElse with
      | true => exact absurd hafter nofun
      | false =>
        exact ⟨body, otherwise, (Except.ok.inj hafter).symm, h.empty body otherwise rfl,
          List.mem_singleton_self _⟩
  have habsent : b'.inputs.find? otherwise.input = none := by
    rw [hinputs]
    exact (h.later _ hlater).2
  exact ⟨⟨fun _ ↦ habsent, nofun, nofun, nofun⟩, hlast⟩

/-- The branches of a new block are all empty, and their names are not those of its inputs. -/
theorem suits_ofCommand {c : Command} (hkind : c.kind = .nesting) (hnodup : c.slotNames.Nodup)
    (hopcode : b.opcode = c.opcode)
    (hinputs : ∀ name, (b.inputs.find? name).isSome → name ∈ c.inputs.map (·.name)) :
    (ofCommand c).Suits b := by
  rw [Command.slotNames, if_pos hkind, pending_eq] at hnodup
  obtain ⟨-, hnames, hdisjoint⟩ := List.nodup_append.1 hnodup
  have habsent : ∀ name ∈ (ofCommand c).active.input :: (ofCommand c).later,
      b.inputs.find? name = none := by
    intro name hname
    by_contra hne
    exact hdisjoint name (hinputs name (Option.isSome_iff_ne_none.2 hne)) name hname rfl
  refine ⟨fun _ ↦ habsent _ List.mem_cons_self, fun name hname ↦ ⟨?_, ?_⟩, fun body hbody ↦ ?_,
    fun body otherwise hbody ↦ ?_⟩
  · rintro rfl
    exact (List.nodup_cons.1 hnames).1 hname
  · exact habsent name (List.mem_cons_of_mem _ hname)
  · unfold ofCommand at hbody
    split at hbody
    · split at hbody
      · next hop => exact hopcode.trans (eq_of_beq hop)
      · split at hbody <;> cases hbody
    · cases hbody
  · have hfits := fits_ofCommand c
    rw [hbody] at hfits
    exact hfits.2.2.2.2

theorem last_ofCommand (c : Command) : (ofCommand c).active.last = none :=
  (fits_ofCommand c).active.2

end Branches

/-! ### Cursors -/

/-- The last block of the innermost open chain. -/
def tipOf (script : Option BlockId) : List Frame → Option BlockId
  | frame :: _ => frame.branches.active.last
  | [] => script

/-- Each open nesting block is the last one of the chain around it. -/
def AreNested (script : Option BlockId) : List Frame → Prop
  | [] => True
  | frame :: outer => tipOf script outer = some frame.block ∧ AreNested script outer

namespace Draft

variable {d e : Draft} {id : BlockId}

/-- The last block of the innermost open chain. -/
def tip (d : Draft) : Option BlockId :=
  tipOf d.script d.frames

/-- The blocks that chains end with which are still open. -/
def ends (d : Draft) : List BlockId :=
  d.tip.toList ++ d.frames.map Frame.block

/-- The cursors point at places that are free. -/
structure Poised (d : Draft) : Prop where
  fresh : d.Fresh
  nested : AreNested d.script d.frames
  nodup : d.ends.Nodup
  free : ∀ id ∈ d.ends, ∃ b, d.blocks.find? id = some b ∧ b.next = none
  suits : ∀ frame ∈ d.frames, ∀ b, d.blocks.find? frame.block = some b → frame.branches.Suits b

theorem poised_start (ids : IdSource) (symbols : Symbols) : Poised { ids, symbols } where
  fresh := fresh_of_empty rfl
  nested := trivial
  nodup := List.nodup_nil
  free := List.forall_mem_nil _
  suits := List.forall_mem_nil _

theorem block_mem_ends {frame : Frame} (h : frame ∈ d.frames) : frame.block ∈ d.ends :=
  List.mem_append_right _ (List.mem_map_of_mem h)

theorem ends_cons {frame : Frame} {outer : List Frame} (h : d.frames = frame :: outer) :
    d.ends = frame.branches.active.last.toList ++ frame.block :: outer.map Frame.block := by
  rw [ends, tip, h]
  rfl

theorem find?_update (d : Draft) (id other : BlockId) (f : Block → Block) :
    (d.update id f).blocks.find? other =
      if other = id then (d.blocks.find? other).map f else d.blocks.find? other :=
  Dict.find?_modify ..

theorem find?_update_self (d : Draft) {id : BlockId} (f : Block → Block)
    {b : Block}
    (h : d.blocks.find? id = some b) : (d.update id f).blocks.find? id = some (f b) := by
  rw [find?_update, if_pos rfl, h]
  rfl

theorem find?_update_of_ne (d : Draft) {id other : BlockId} (f : Block → Block) (h : other ≠ id) :
    (d.update id f).blocks.find? other = d.blocks.find? other := by
  rw [find?_update, if_neg h]

namespace Poised

/-- Additions keep the cursors free. -/
theorem isStable : IsStable Poised where
  fresh := Poised.fresh
  extended {d e} h hext := by
    have hends : e.ends = d.ends := by rw [ends, tip, hext.frames, hext.script]; rfl
    refine ⟨hext.fresh, ?_, hends ▸ h.nodup, fun id hid ↦ ?_, fun frame hframe b hb ↦ ?_⟩
    · rw [hext.frames, hext.script]
      exact h.nested
    · obtain ⟨b, hb, hnext⟩ := h.free id (hends ▸ hid)
      exact ⟨b, hext.spares id b hb, hnext⟩
    · rw [hext.frames] at hframe
      obtain ⟨b', hb', -⟩ := h.free _ (block_mem_ends hframe)
      obtain rfl := Option.some.inj ((hext.spares _ b' hb').symm.trans hb)
      exact h.suits frame hframe b' hb'

/-- An open script may end with any block that has no successor. -/
theorem of_script (hfresh : d.Fresh) (hframes : d.frames = []) (hscript : d.script = some id)
    {b : Block} (hb : d.blocks.find? id = some b) (hnext : b.next = none) : d.Poised := by
  have hends : d.ends = [id] := by
    rw [ends, tip, hframes, hscript]
    rfl
  refine ⟨hfresh, ?_, ?_, ?_, ?_⟩
  · rw [hframes]
    trivial
  · rw [hends]
    exact List.nodup_singleton id
  · rw [hends]
    exact List.forall_mem_singleton.2 ⟨b, hb, hnext⟩
  · rw [hframes]
    exact List.forall_mem_nil _

theorem openScript (hfresh : d.Fresh) {b : Block} (hb : d.blocks.find? id = some b)
    (hnext : b.next = none) : (d.openScript id).Poised :=
  of_script hfresh rfl rfl hb hnext

/-- After the innermost block is closed, the chain around it goes on after that block. -/
theorem pop (h : d.Poised) {frame : Frame} {outer : List Frame}
    (hframes : d.frames = frame :: outer) : ({ d with frames := outer } : Draft).Poised := by
  have hnested := h.nested
  rw [hframes] at hnested
  have hends : ends { d with frames := outer } = frame.block :: outer.map Frame.block := by
    show (tipOf d.script outer).toList ++ _ = _
    rw [hnested.1]
    rfl
  have hsub : (ends { d with frames := outer }).Sublist d.ends := by
    rw [hends, ends_cons hframes]
    exact List.sublist_append_right _ _
  refine ⟨h.fresh, hnested.2, h.nodup.sublist hsub, fun id hid ↦ h.free id (hsub.subset hid),
    fun frame hframe ↦ h.suits frame ?_⟩
  rw [hframes]
  exact List.mem_cons_of_mem _ hframe

/-- A script may be closed. -/
theorem close (h : d.Poised) (hframes : d.frames = []) :
    ({ d with script := none } : Draft).Poised := by
  have hends : ends { d with script := none } = [] := by
    rw [ends, tip]
    simp [hframes, tipOf]
  refine ⟨h.fresh, ?_, ?_, ?_, h.suits⟩
  · show AreNested none d.frames
    rw [hframes]
    trivial
  · rw [hends]
    exact List.nodup_nil
  · rw [hends]
    exact List.forall_mem_nil _

/-- The innermost open chain goes on with a block. The nesting block around it may change in the
active branch. -/
theorem extend (h : d.Poised) {frame : Frame} {outer : List Frame}
    (hframes : d.frames = frame :: outer) (hid : id ∉ d.ends) (hfresh : e.Fresh)
    (heframes : e.frames = { frame with branches := frame.branches.extend id } :: outer)
    (hescript : e.script = d.script) (hnew : ∃ b, e.blocks.find? id = some b ∧ b.next = none)
    (hblock : ∀ b, d.blocks.find? frame.block = some b → ∃ b',
      e.blocks.find? frame.block = some b' ∧ b'.next = b.next ∧ b'.opcode = b.opcode ∧
        ∀ name, name ≠ frame.branches.active.input → b'.inputs.find? name = b.inputs.find? name)
    (houter : ∀ other ∈ outer, e.blocks.find? other.block = d.blocks.find? other.block) :
    e.Poised := by
  have hends : e.ends = id :: frame.block :: outer.map Frame.block := by
    rw [ends_cons heframes, Branches.active_extend]
    rfl
  rw [ends_cons hframes, List.mem_append, not_or] at hid
  have hnodup := h.nodup
  rw [ends_cons hframes] at hnodup
  have htail := (List.nodup_append.1 hnodup).2.1
  have hmem : frame ∈ d.frames := by simp [hframes]
  -- the nesting block is open, so nothing follows it, before the step and after it
  obtain ⟨b, hb, hnext⟩ := h.free _ (block_mem_ends hmem)
  obtain ⟨b', hb', hnext', hopcode, hinputs⟩ := hblock b hb
  refine ⟨hfresh, ?_, ?_, ?_, ?_⟩
  · have hnested := h.nested
    rw [hframes] at hnested
    rw [heframes, hescript]
    exact hnested
  · rw [hends]
    exact List.nodup_cons.2 ⟨hid.2, htail⟩
  · rw [hends]
    refine List.forall_mem_cons.2 ⟨hnew, List.forall_mem_cons.2 ⟨⟨b', hb', hnext'.trans hnext⟩, ?_⟩⟩
    intro other hother
    obtain ⟨frame', hframe', rfl⟩ := List.mem_map.1 hother
    rw [houter frame' hframe']
    exact h.free _ (block_mem_ends (hframes ▸ List.mem_cons_of_mem _ hframe'))
  · rw [heframes]
    refine List.forall_mem_cons.2 ⟨fun c hc ↦ ?_, fun frame' hframe' c hc ↦ ?_⟩
    · obtain rfl := Option.some.inj (hb'.symm.trans hc)
      exact (h.suits frame hmem b hb).extend id hopcode hinputs
    · rw [houter frame' hframe'] at hc
      exact h.suits frame' (hframes ▸ List.mem_cons_of_mem _ hframe') c hc

/-- The block that an open chain ends with is a nesting block and is opened. -/
theorem openFrame (h : d.Poised) {frame : Frame} (htip : d.tip = some frame.block)
    (hempty : frame.branches.active.last = none)
    (hsuits : ∀ b, d.blocks.find? frame.block = some b → frame.branches.Suits b) :
    (d.openFrame frame).Poised := by
  have hends : (d.openFrame frame).ends = d.ends := by
    rw [ends_cons (rfl : (d.openFrame frame).frames = frame :: d.frames), hempty, ends, htip]
    rfl
  refine ⟨h.fresh, ⟨htip, h.nested⟩, hends ▸ h.nodup, fun id hid ↦ h.free id (hends ▸ hid), ?_⟩
  exact List.forall_mem_cons.2 ⟨hsuits, h.suits⟩

/-- What the cursors do not speak of may change. -/
theorem update (h : d.Poised) (id : BlockId) {f : Block → Block} (hnext : ∀ b, (f b).next = b.next)
    (hframes : ∀ frame ∈ d.frames, frame.block = id →
      ∀ b, (f b).opcode = b.opcode ∧ (f b).inputs = b.inputs) : (d.update id f).Poised := by
  refine ⟨(Grows.update h.fresh id f).fresh, h.nested, h.nodup, fun other hother ↦ ?_,
    fun frame hframe c hc ↦ ?_⟩
  · obtain ⟨b, hb, hfree⟩ := h.free other hother
    rw [find?_update, hb]
    split
    · exact ⟨f b, rfl, (hnext b).trans hfree⟩
    · exact ⟨b, rfl, hfree⟩
  · obtain ⟨b, hb, -⟩ := h.free _ (block_mem_ends hframe)
    have hsuits := h.suits frame hframe b hb
    rw [find?_update, hb] at hc
    split at hc
    · next hid =>
      obtain rfl := Option.some.inj hc
      obtain ⟨hopcode, hinputs⟩ := hframes frame hframe hid b
      obtain ⟨hactive, hlater, hop, hempty⟩ := hsuits
      rw [← hinputs] at hactive hlater
      exact ⟨hactive, hlater, fun body hbody ↦ hopcode.trans (hop body hbody), hempty⟩
    · obtain rfl := Option.some.inj hc
      exact hsuits

end Poised

/-! ### What a line may change -/

/-- The block is made on the way from one draft to another. -/
def Makes (d e : Draft) (id : BlockId) : Prop :=
  d.blocks.find? id = none ∧ (e.blocks.find? id).isSome

/-- What a line may make of a block that was there before it. -/
inductive Change (d e : Draft) (isElse : Prop) (id : BlockId) (b : Block) : Block → Prop where
  /-- The last block of the innermost open chain gets a successor. -/
  | next {new : BlockId} (htip : d.tip = some id) (hnone : b.next = none) (hnew : d.Makes e new) :
    Change d e isElse id b { b with next := some new }
  /-- The innermost nesting block gets the first block of a branch. -/
  | branch {frame : Frame} {new : BlockId} (hframe : d.frames.head? = some frame)
    (hblock : frame.block = id) (habsent : b.inputs.find? frame.branches.active.input = none)
    (hnew : d.Makes e new) :
    Change d e isElse id b
      { b with inputs := b.inputs.insert frame.branches.active.input (.block new) }
  /-- An else gives a conditional a second branch. -/
  | otherwise {frame : Frame} (hframe : d.frames.head? = some frame) (hblock : frame.block = id)
    (helse : isElse) (hopcode : b.opcode = Opcode.ifThen) :
    Change d e isElse id b { b with opcode := Opcode.ifElse }

/-- Between two drafts at most one block is changed, and as a line may change it. -/
inductive Appends (d e : Draft) (isElse : Prop) : Prop where
  | nothing (h : d.Spares e)
  | one {id : BlockId} {b b' : Block} (hb : d.blocks.find? id = some b)
    (hb' : e.blocks.find? id = some b') (hchange : Change d e isElse id b b')
    (hothers : ∀ other c, other ≠ id → d.blocks.find? other = some c →
      e.blocks.find? other = some c)

variable {base f : Draft} {isElse : Prop} {b c : Block}

theorem Makes.mono {id : BlockId} (h : d.Makes e id)
    (hmore : ∀ id, (e.blocks.find? id).isSome → (f.blocks.find? id).isSome) : d.Makes f id :=
  ⟨h.1, hmore id h.2⟩

/-- What happens to new blocks later on is no matter. -/
theorem Appends.mono (h : d.Appends e isElse)
    (hold : ∀ id b, d.blocks.find? id = some b → f.blocks.find? id = e.blocks.find? id)
    (hmore : ∀ id, (e.blocks.find? id).isSome → (f.blocks.find? id).isSome) :
    d.Appends f isElse := by
  have hkeep : ∀ id b c, d.blocks.find? id = some b → e.blocks.find? id = some c →
      f.blocks.find? id = some c := by
    intro id b c hb hc
    rw [hold id b hb, hc]
  cases h with
  | nothing h => exact .nothing fun id b hb ↦ hkeep id b b hb (h id b hb)
  | @one id b b' hb hb' hchange hothers =>
    refine .one hb (hkeep id b b' hb hb') ?_ fun other c hne hc ↦
      hkeep other c c hc (hothers other c hne hc)
    cases hchange with
    | next htip hnone hnew => exact .next htip hnone (hnew.mono hmore)
    | branch hframe hblock habsent hnew => exact .branch hframe hblock habsent (hnew.mono hmore)
    | otherwise hframe hblock helse hopcode => exact .otherwise hframe hblock helse hopcode

/-- Every block is still there. -/
theorem Appends.exists_find? (h : d.Appends e isElse) (hb : d.blocks.find? id = some b) :
    ∃ b', e.blocks.find? id = some b' := by
  cases h with
  | nothing h => exact ⟨b, h id b hb⟩
  | @one changed was now hwas hnow hchange hothers =>
    by_cases hid : id = changed
    · exact ⟨now, hid ▸ hnow⟩
    · exact ⟨b, hothers id b hid hb⟩

/-! ### Appending a block -/

/-- The draft has a block as it is before it is appended. -/
structure IsReady (base : Draft) (id : BlockId) (b : Block) (e : Draft) : Prop where
  extended : base.Extends e
  new : base.blocks.find? id = none
  block : e.blocks.find? id = some b
  next : b.next = none

/-- The draft has a block as it is after it was appended: it is the last one of the innermost open
chain and holds what it held. -/
structure IsAppended (base : Draft) (isElse : Prop) (id : BlockId) (b : Block) (e : Draft) :
    Prop where
  poised : e.Poised
  tip : e.tip = some id
  appends : base.Appends e isElse
  new : base.blocks.find? id = none
  block : ∃ b', e.blocks.find? id = some b' ∧ b'.opcode = b.opcode ∧ b'.inputs = b.inputs

theorem IsReady.ne (h : base.IsReady id b e) {old : BlockId} {was : Block}
    (hwas : base.blocks.find? old = some was) : old ≠ id := by
  rintro rfl
  rw [h.new] at hwas
  exact absurd hwas nofun

/-- The new block has its parent, which is one from before the line, and all else is as it was. -/
structure IsTied (e : Draft) (id : BlockId) (b : Block) (old : BlockId) (now : Block)
    (tied : Draft) : Prop where
  fresh : tied.Fresh
  block : tied.blocks.find? id = some { b with parent := some old }
  changed : tied.blocks.find? old = some now
  others : ∀ other, other ≠ old → other ≠ id → tied.blocks.find? other = e.blocks.find? other

theorem IsReady.isTied (h : base.IsReady id b e) {old : BlockId} {was : Block}
    (hwas : base.blocks.find? old = some was) (f : Block → Block) (script : Option BlockId)
    (frames : List Frame) : e.IsTied id b old (f was)
      ((({ e with script, frames } : Draft).update old f).setParent id old) := by
  have hne := h.ne hwas
  have hfresh : ({ e with script, frames } : Draft).Fresh := h.extended.fresh
  refine ⟨?_, ?_, ?_, fun other hold hid ↦ ?_⟩
  · exact (Grows.update (Grows.update hfresh old f).fresh id _).fresh
  · refine find?_update_self _ _ ?_
    rw [find?_update_of_ne _ _ (Ne.symm hne)]
    exact h.block
  · rw [setParent, find?_update_of_ne _ _ hne]
    exact find?_update_self _ _ (h.extended.spares old was hwas)
  · rw [setParent, find?_update_of_ne _ _ hid, find?_update_of_ne _ _ hold]

theorem IsTied.appends {old : BlockId} {was now : Block} {tied : Draft}
    (ht : e.IsTied id b old now tied) (h : base.IsReady id b e)
    (hwas : base.blocks.find? old = some was)
    (hchange : base.Makes tied id → Change base tied isElse old was now) :
    base.Appends tied isElse := by
  refine .one hwas ht.changed (hchange ⟨h.new, by rw [ht.block]; rfl⟩) fun other c hother hc ↦ ?_
  rw [ht.others other hother (h.ne hc)]
  exact h.extended.spares other c hc

section

variable (h : base.IsReady id b e) (hbase : base.Poised)
include h hbase

/-- The cursors do not point at the new block. -/
theorem IsReady.notMem_ends : id ∉ e.ends := by
  rw [ends, tip, h.extended.frames, h.extended.script]
  intro hmem
  obtain ⟨was, hwas, -⟩ := hbase.free id hmem
  exact h.ne hwas rfl

theorem IsReady.append_script (hframes : base.frames = []) {last : BlockId}
    (hscript : base.script = some last) : base.IsAppended isElse id b (e.append id) := by
  have htip : base.tip = some last := by rw [tip, hframes]; exact hscript
  obtain ⟨was, hwas, hnext⟩ := hbase.free last (by simp [ends, htip])
  have heframes := h.extended.frames.trans hframes
  rw [Draft.append_script heframes (h.extended.script.trans hscript)]
  have htied : e.IsTied id b last { was with next := some id }
      (({ e with script := some id } : Draft).link last id) :=
    h.isTied hwas (fun b ↦ { b with next := some id }) (some id) e.frames
  refine ⟨.of_script htied.fresh heframes rfl htied.block h.next, ?_, ?_, h.new, ?_⟩
  · show tipOf (some id) e.frames = some id
    rw [heframes]
    rfl
  · exact htied.appends h hwas fun hmakes ↦ .next htip hnext hmakes
  · exact ⟨_, htied.block, rfl, rfl⟩

variable {frame : Frame} {outer : List Frame} (hframes : base.frames = frame :: outer)
include hframes

/-- The cursors stand well after the new block was tied to one at the end of the innermost chain, or
to the nesting block around that chain. -/
theorem IsTied.poised {old : BlockId} {now : Block} {tied : Draft}
    (ht : e.IsTied id b old now tied)
    (hmoved : tied.frames = { frame with branches := frame.branches.extend id } :: outer)
    (hscript : tied.script = e.script)
    (hblock : ∀ c, e.blocks.find? frame.block = some c → ∃ c',
      tied.blocks.find? frame.block = some c' ∧ c'.next = c.next ∧ c'.opcode = c.opcode ∧
        ∀ name, name ≠ frame.branches.active.input → c'.inputs.find? name = c.inputs.find? name)
    (hold : ∀ other ∈ outer, other.block ≠ old) : tied.Poised := by
  have hpoised := Poised.isStable.extended hbase h.extended
  refine hpoised.extend (h.extended.frames.trans hframes) (h.notMem_ends hbase) ht.fresh hmoved
    hscript ⟨_, ht.block, h.next⟩ hblock fun other hother ↦ ?_
  obtain ⟨was, hwas, -⟩ :=
    hbase.free _ (block_mem_ends (hframes ▸ List.mem_cons_of_mem frame hother))
  exact ht.others _ (hold other hother) (h.ne hwas)

theorem IsReady.append_hang (hlast : frame.branches.active.last = none) :
    base.IsAppended isElse id b (e.append id) := by
  have hmem : frame ∈ base.frames := hframes ▸ List.mem_cons_self
  obtain ⟨holder, hholder, -⟩ := hbase.free _ (block_mem_ends hmem)
  rw [Draft.append_hang (h.extended.frames.trans hframes) hlast]
  have htied : e.IsTied id b frame.block { holder with
        inputs := holder.inputs.insert frame.branches.active.input (.block id) }
      ((({ e with frames := { frame with branches := frame.branches.extend id } :: outer } :
        Draft).setInput frame.block frame.branches.active.input (.block id)).setParent id
          frame.block) :=
    h.isTied hholder (fun b ↦ { b with
      inputs := b.inputs.insert frame.branches.active.input (.block id) }) e.script _
  refine ⟨htied.poised h hbase hframes rfl rfl (fun c hc ↦ ?_) fun other hother heq ↦ ?_, ?_, ?_,
    h.new, ⟨_, htied.block, rfl, rfl⟩⟩
  · -- only the input of the active branch changes
    obtain rfl := Option.some.inj ((h.extended.spares _ _ hholder).symm.trans hc)
    exact ⟨_, htied.changed, rfl, rfl, fun name hname ↦ Dict.find?_insert_of_ne _ _ hname⟩
  · have hnodup := hbase.nodup
    rw [ends_cons hframes, List.nodup_append] at hnodup
    exact (List.nodup_cons.1 hnodup.2.1).1 (heq ▸ List.mem_map_of_mem hother)
  · show (frame.branches.extend id).active.last = some id
    rw [Branches.active_extend]
  · have habsent := (hbase.suits frame hmem holder hholder).active hlast
    exact htied.appends h hholder fun hmakes ↦ .branch (by rw [hframes]; rfl) rfl habsent hmakes

theorem IsReady.append_link {last : BlockId} (hlast : frame.branches.active.last = some last) :
    base.IsAppended isElse id b (e.append id) := by
  have htip : base.tip = some last := by rw [tip, hframes]; exact hlast
  obtain ⟨was, hwas, hnext⟩ := hbase.free last (by simp [ends, htip])
  rw [Draft.append_link (h.extended.frames.trans hframes) hlast]
  have htied : e.IsTied id b last { was with next := some id }
      (({ e with frames := { frame with branches := frame.branches.extend id } :: outer } :
        Draft).link last id) :=
    h.isTied hwas (fun b ↦ { b with next := some id }) e.script _
  -- the open nesting blocks come after none of the blocks in their own chains
  have hothers : ∀ block ∈ frame.block :: outer.map Frame.block, block ≠ last := by
    have hnodup := hbase.nodup
    rw [ends_cons hframes, hlast, List.nodup_append] at hnodup
    exact fun block hblock heq ↦ hnodup.2.2 last (by simp) block hblock heq.symm
  refine ⟨htied.poised h hbase hframes rfl rfl (fun c hc ↦ ?_) fun other hother ↦ ?_, ?_, ?_,
    h.new, ⟨_, htied.block, rfl, rfl⟩⟩
  · obtain ⟨holder, hholder, -⟩ :=
      hbase.free _ (block_mem_ends (hframes ▸ List.mem_cons_self : frame ∈ base.frames))
    refine ⟨c, ?_, rfl, rfl, fun _ _ ↦ rfl⟩
    rw [htied.others _ (hothers _ List.mem_cons_self) (h.ne hholder), hc]
  · exact hothers _ (List.mem_cons_of_mem _ (List.mem_map_of_mem hother))
  · show (frame.branches.extend id).active.last = some id
    rw [Branches.active_extend]
  · exact htied.appends h hwas fun hmakes ↦ .next htip hnext hmakes

end

/-- A block that is ready is appended where the cursors point, and they move on to it. -/
theorem IsReady.append (h : base.IsReady id b e) (hbase : base.Poised)
    (hopen : base.script.isSome) : base.IsAppended isElse id b (e.append id) := by
  cases hframes : base.frames with
  | nil =>
    obtain ⟨last, hscript⟩ := Option.isSome_iff_exists.1 hopen
    exact h.append_script hbase hframes hscript
  | cons frame outer =>
    cases hlast : frame.branches.active.last with
    | none => exact h.append_hang hbase hframes hlast
    | some last => exact h.append_link hbase hframes hlast

/-! ### The block of a statement -/

/-- A new block whose slots are being filled: it has no successor, and its inputs are some of the
given ones. -/
def IsFilling (base : Draft) (id : BlockId) (opcode : String) (names : List String) (e : Draft) :
    Prop :=
  ∃ b, base.IsReady id b e ∧ b.opcode = opcode ∧
    ∀ name, (b.inputs.find? name).isSome → name ∈ names

section

variable {opcode : String} {names : List String}

theorem isFilling_create (h : d.Fresh) (opcode : String) (role : Role) (names : List String) :
    d.IsFilling d.nextId opcode names (d.create opcode role).2 := by
  have hblock : (d.create opcode role).2.blocks.find? d.nextId = some (d.newBlock opcode role) := by
    rw [find?_create, if_pos rfl]
  have hempty : (d.newBlock opcode role).next = none ∧ (d.newBlock opcode role).opcode = opcode ∧
      (d.newBlock opcode role).inputs = ∅ := by
    cases role <;> exact ⟨rfl, rfl, rfl⟩
  refine ⟨_, ⟨.create h opcode role, h.find?_next, hblock, hempty.1⟩, hempty.2.1,
    fun name hname ↦ ?_⟩
  rw [hempty.2.2] at hname
  exact absurd hname nofun

theorem isStable_isFilling (base : Draft) (id : BlockId) (opcode : String) (names : List String) :
    IsStable (base.IsFilling id opcode names) where
  fresh := fun ⟨_, hready, _⟩ ↦ hready.extended.fresh
  extended := fun ⟨b, hready, hrest⟩ hext ↦
    ⟨b, ⟨hready.extended.trans hext, hready.new, hext.spares id b hready.block, hready.next⟩, hrest⟩

theorem IsFilling.setField (h : base.IsFilling id opcode names e) (name : String) (field : Field) :
    base.IsFilling id opcode names (e.setField id name field) := by
  obtain ⟨b, hready, hopcode, hnames⟩ := h
  exact ⟨_, ⟨hready.extended.update hready.new _, hready.new, find?_update_self _ _ hready.block,
    hready.next⟩, hopcode, hnames⟩

theorem IsFilling.setInput (h : base.IsFilling id opcode names e) {name : String}
    (hname : name ∈ names) (slot : Slot) :
    base.IsFilling id opcode names (e.setInput id name slot) := by
  obtain ⟨b, hready, hopcode, hnames⟩ := h
  refine ⟨_, ⟨hready.extended.update hready.new _, hready.new, find?_update_self _ _ hready.block,
    hready.next⟩, hopcode, fun other hother ↦ ?_⟩
  by_cases hother' : other = name
  · exact hother' ▸ hname
  · exact hnames other (by simpa [Dict.find?_insert_of_ne _ _ hother'] using hother)

/-- Another new block may change. -/
theorem IsFilling.updateOther (h : base.IsFilling id opcode names e) {other : BlockId}
    (hne : other ≠ id) (hnew : base.blocks.find? other = none) (f : Block → Block) :
    base.IsFilling id opcode names (e.update other f) := by
  obtain ⟨b, hready, hrest⟩ := h
  refine ⟨b, ⟨hready.extended.update hnew _, hready.new, ?_, hready.next⟩, hrest⟩
  rw [find?_update_of_ne _ _ (Ne.symm hne), hready.block]

theorem IsFilling.spares (h : base.IsFilling id opcode names e) : base.Spares e := by
  obtain ⟨b, hready, -⟩ := h
  exact hready.extended.spares

/-- The block starts a script. -/
theorem IsFilling.openScript (h : base.IsFilling id opcode names e) :
    ((e.openScript id).countCommand).Poised := by
  obtain ⟨b, hready, -⟩ := h
  exact .of_script hready.extended.fresh rfl rfl hready.block hready.next

end

/-- What becomes of a draft after a block is appended to it leaves that block where it is. -/
theorem IsAppended.update (h : base.IsAppended isElse id b e) {f : Block → Block}
    (hf : ∀ b, (f b).next = b.next ∧ (f b).opcode = b.opcode ∧ (f b).inputs = b.inputs) :
    (e.update id f).Poised ∧ base.Appends (e.update id f) isElse := by
  refine ⟨h.poised.update id (fun b ↦ (hf b).1) fun _ _ _ b ↦ (hf b).2,
    h.appends.mono (fun other c hc ↦ ?_) fun other hother ↦ ?_⟩
  · have hne : other ≠ id := by
      rintro rfl
      rw [h.new] at hc
      exact absurd hc nofun
    exact find?_update_of_ne _ _ hne
  · rw [find?_update]
    split <;> simpa using hother

theorem IsAppended.extended (h : base.IsAppended isElse id b e) (hext : e.Extends f) :
    base.IsAppended isElse id b f where
  poised := Poised.isStable.extended h.poised hext
  tip := by
    rw [Draft.tip, hext.frames, hext.script]
    exact h.tip
  appends := h.appends.mono (fun other c hc ↦ by
      obtain ⟨c', hc'⟩ := h.appends.exists_find? hc
      rw [hc', hext.spares other c' hc'])
    fun other hother ↦ by
      obtain ⟨c', hc'⟩ := Option.isSome_iff_exists.1 hother
      rw [hext.spares other c' hc']
      rfl
  new := h.new
  block := by
    obtain ⟨b', hb', hrest⟩ := h.block
    exact ⟨b', hext.spares id b' hb', hrest⟩

theorem IsAppended.openFrame (h : base.IsAppended isElse id b e) {frame : Frame}
    (hblock : frame.block = id) (hempty : frame.branches.active.last = none)
    (hsuits : ∀ b', b'.opcode = b.opcode → b'.inputs = b.inputs → frame.branches.Suits b') :
    (e.openFrame frame).Poised ∧ base.Appends (e.openFrame frame) isElse := by
  subst hblock
  obtain ⟨b', hb', hopcode, hinputs⟩ := h.block
  refine ⟨h.poised.openFrame h.tip hempty fun c hc ↦ ?_,
    h.appends.mono (fun _ _ _ ↦ rfl) fun _ h ↦ h⟩
  obtain rfl := Option.some.inj (hb'.symm.trans hc)
  exact hsuits b' hopcode hinputs

end Draft

end BlockScript

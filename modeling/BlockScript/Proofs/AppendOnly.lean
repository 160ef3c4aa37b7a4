import BlockScript.Proofs.Cursor
import BlockScript.Proofs.Parse

/-!
# Building is append-only

A line adds blocks to a draft and ties them to at most one block that was there before
(`Draft.Appends`): it gives the last block of the innermost open chain a successor, or it puts a
first block into a branch of the innermost nesting block, or it is an `else` and makes a conditional
one with two branches. A line that cannot be read changes no block at all, whatever it has made
before its fault was found (`Draft.isAppendOnly_of_reached`).

A rejected line keeps the cursors poised as well. It may leave blocks behind that belong to no
script, or close a nesting block by an `else` it cannot take; but then the chain around that block
ends with it, as if it had been closed by an `end`.
-/

namespace BlockScript

/-! ### Lines -/

namespace Build

open Draft

variable {α β : Type} {d : Draft} {ok : α → Draft → Prop} {ok' : β → Draft → Prop}
  {bad : Draft → Prop} {isElse : Prop}

/-- The work does to a draft what a line may do, and leaves it poised. -/
def AppendsFrom (isElse : Prop) (d : Draft) (work : Build Unit) : Prop :=
  LeadsTo (fun _ e ↦ e.Poised ∧ d.Appends e isElse) (fun e ↦ e.Poised ∧ d.Spares e) work d

section

variable {work : Build Unit} (h : AppendsFrom isElse d work)
include h

/-- Work that appends leaves the draft poised, be it accepted or not. -/
theorem AppendsFrom.poised : (Script.run work d).2.Poised := by
  cases hrun : (Script.run work d).1 with
  | ok a => exact (h.1 a hrun).1
  | error e => exact (h.2 e hrun).1

/-- Accepted work adds what a line may add. -/
theorem AppendsFrom.accepted {a : Unit} (hrun : (Script.run work d).1 = .ok a) :
    d.Appends (Script.run work d).2 isElse :=
  (h.1 a hrun).2

/-- Rejected work spares the blocks there were. -/
theorem AppendsFrom.rejected {error : SourceError} (hrun : (Script.run work d).1 = .error error) :
    d.Spares (Script.run work d).2 :=
  (h.2 error hrun).2

end

/-- A draft spares its own blocks. -/
theorem spares_rfl : d.Spares d := fun _ _ hb ↦ hb

/-- An end adds nothing. -/
theorem closeBlock_appends (h : d.Poised) (line : Nat) :
    AppendsFrom isElse d (closeBlock line) := by
  refine LeadsTo.get_bind ?_
  split
  · next hframes => exact .set ⟨h.pop hframes, .nothing spares_rfl⟩
  · next hframes _ => exact .set ⟨h.close hframes, .nothing spares_rfl⟩
  · exact .fail ⟨h, spares_rfl⟩

/-- An else changes the operation code of a conditional. Where it cannot be taken, the block is
closed. -/
theorem enterElse_appends (h : d.Poised) (helse : isElse) (line : Nat) :
    AppendsFrom isElse d (enterElse line) := by
  refine LeadsTo.get_bind ?_
  split
  · exact .fail ⟨h, spares_rfl⟩
  · next frame outer hframes =>
    have hpop := h.pop hframes
    refine LeadsTo.set_bind ?_
    split
    · exact .fail ⟨hpop, spares_rfl⟩
    · next branches hbranches =>
      have hmem : frame ∈ d.frames := by simp [hframes]
      have htip := h.nested
      rw [hframes] at htip
      obtain ⟨b, hb, -⟩ := h.free _ (block_mem_ends hmem)
      have hsuits := h.suits frame hmem b hb
      have hafter : ∀ b' : Block, b'.inputs = b.inputs → branches.Suits b' :=
        fun b' hinputs ↦ (hsuits.enterElse hbranches hinputs).1
      have hempty := (hsuits.enterElse hbranches rfl).2
      dsimp only
      split
      · next body hbody =>
        -- The block is no longer one of the open ones while its operation code changes.
        have hnodup := h.nodup
        rw [ends_cons hframes] at hnodup
        have hnotMem := (List.nodup_cons.1 (List.nodup_append.1 hnodup).2.1).1
        have hupdate : (({ d with frames := outer } : Draft).update frame.block fun b ↦
            { b with opcode := Opcode.ifElse }).Poised :=
          hpop.update frame.block (fun _ ↦ rfl) fun other hother heq ↦
            absurd (heq ▸ List.mem_map_of_mem hother) hnotMem
        have hchanged := find?_update_self { d with frames := outer }
          (fun b ↦ { b with opcode := Opcode.ifElse }) hb
        refine LeadsTo.modify_bind (.modify ⟨hupdate.openFrame htip.1 hempty fun b' hb' ↦ ?_, ?_⟩)
        · obtain rfl := Option.some.inj (hchanged.symm.trans hb')
          exact hafter _ rfl
        · refine .one hb hchanged ?_ fun other c hne hc ↦ ?_
          · exact .otherwise (by rw [hframes]; rfl) rfl helse (hsuits.opcode body hbody)
          · exact (find?_update_of_ne { d with frames := outer } _ hne).trans hc
      · refine .modify ⟨hpop.openFrame htip.1 hempty fun b' hb' ↦ ?_, .nothing spares_rfl⟩
        obtain rfl := Option.some.inj (hb.symm.trans hb')
        exact hafter _ rfl

/-- A declaration adds nothing. -/
theorem declare_appends (h : d.Poised) (line : Nat) (name : String) (args : List String) :
    AppendsFrom isElse d (declare line name args) := by
  unfold declare
  split
  · next kind initial _ =>
    have hext := Extends.intern h.fresh kind
      (Text.nameOr (args.head?.getD "") kind.fallbackName) initial
    exact .modify ⟨Poised.isStable.extended h hext, .nothing hext.spares⟩
  · exact .fail ⟨h, spares_rfl⟩

/-- Asking for a procedure cannot fail. -/
theorem signature_leadsTo (h : d.Fresh) (args : List String) :
    LeadsTo (fun _ e ↦ d.Extends e) bad (signature args) d :=
  ⟨fun _ _ ↦ .intern h .procedures _ "", nofun⟩

/-- A definition starts a script with blocks of its own. -/
theorem define_appends (h : d.Poised) (args : List String) :
    AppendsFrom isElse d (define args) := by
  refine (signature_leadsTo h.fresh args).bind fun name base hbase ↦ ?_
  refine LeadsTo.modifyGet_bind (LeadsTo.modifyGet_bind (.modify ?_))
  have hcreated := isFilling_create hbase.fresh Opcode.definition .entry ["custom_block"]
  have ⟨b, hready, _⟩ := hcreated
  -- The prototype is another new block.
  have hne : (base.create Opcode.definition .entry).2.nextId ≠ base.nextId := by
    intro heq
    have hnone := hready.extended.fresh.find?_next
    rw [heq, hready.block] at hnone
    exact absurd hnone nofun
  have hprototype := (isStable_isFilling ..).extended hcreated
    (.create hready.extended.fresh Opcode.prototype (.shadow base.nextId))
  have hdone := (hprototype.setInput (List.mem_singleton_self _)
    (.shadow (base.create Opcode.definition .entry).2.nextId)).updateOther hne
      hready.extended.find?_nextId fun b ↦ { b with procedure := some { signature := name } }
  exact ⟨hdone.openScript, .nothing fun id b hb ↦ hdone.spares id b (hbase.spares id b hb)⟩

section

variable {embed : Embed} (he : EmbedAdds embed) {catalog : Catalog} {target : TargetKind}
  {c : Command} (hc : c ∈ catalog.commands.values)

include he hc in
/-- A statement is appended to a chain or starts one, and the rest of what it makes is new. -/
theorem statement_appends (havailable : c.isAvailableOn target = true) (h : d.Poised)
    (hnodup : c.slotNames.Nodup) (hopen : c.kind ≠ .hat → d.script.isSome) (line : Nat)
    (tokens raw : List String) :
    AppendsFrom isElse d (statement embed line c tokens raw) := by
  have hcreated := isFilling_create h.fresh c.opcode (if c.kind == .hat then .entry else .statement)
    (c.inputs.map (·.name))
  have hslots := bindSlots_maintains he hc havailable
    (isStable_isFilling d d.nextId c.opcode (c.inputs.map (·.name)))
    (fun e name field hfill ↦ hfill.setField name field)
    (fun spec hspec e slot hfill ↦ hfill.setInput (List.mem_map_of_mem hspec) slot) line
    (.ofLine tokens raw) hcreated
  refine LeadsTo.modifyGet_bind ((hslots.imp (fun _ _ h ↦ h) fun e hfill ↦ ?_).bind ?_)
  · obtain ⟨b, hready, -⟩ := hfill
    exact ⟨Poised.isStable.extended h hready.extended, hready.extended.spares⟩
  · rintro ⟨⟩ e ⟨b, hready, hopcode, hnames⟩
    refine LeadsTo.modify_bind ?_
    -- only a statement is appended to a block that was there; a head has none before it
    by_cases hhat : c.kind = .hat
    · simp only [hhat]
      have hopened := IsFilling.openScript ⟨b, hready, hopcode, hnames⟩
      exact .modify ⟨hopened, .nothing hready.extended.spares⟩
    · have happended : d.IsAppended isElse d.nextId b (e.append d.nextId) :=
        hready.append h (hopen hhat)
      simp only [beq_eq_false_iff_ne.2 hhat]
      have hcount : ∀ {f : Draft}, f.Poised ∧ d.Appends f isElse →
          LeadsTo (fun _ e ↦ e.Poised ∧ d.Appends e isElse) (fun e ↦ e.Poised ∧ d.Spares e)
            (modify countCommand) f := fun hf ↦
        .modify ⟨⟨hf.1.fresh, hf.1.nested, hf.1.nodup, hf.1.free, hf.1.suits⟩,
          hf.2.mono (fun _ _ _ ↦ rfl) fun _ h ↦ h⟩
      split
      · next hkind =>
        refine LeadsTo.modify_bind (hcount (happended.openFrame rfl (Branches.last_ofCommand c) ?_))
        intro b' hopcode' hinputs'
        exact Branches.suits_ofCommand hkind hnodup (hopcode'.trans hopcode)
          fun name hname ↦ hnames name (hinputs' ▸ hname)
      · refine (signature_leadsTo happended.poised.fresh tokens).bind fun name f hext ↦ ?_
        have hcalled := happended.extended hext
        exact LeadsTo.modify_bind (hcount (hcalled.update fun _ ↦ ⟨rfl, rfl, rfl⟩))
      · exact hcount ⟨happended.poised, happended.appends⟩

/-- A script that is opened by itself is poised, and its head is new. -/
theorem ensureScript_cases (h : d.Poised) : d.ensureScript.Poised ∧ d.ensureScript.script.isSome ∧
    d.Spares d.ensureScript ∧ ∀ e, d.ensureScript.Appends e isElse → d.Appends e isElse := by
  unfold ensureScript
  split
  · next hsome => exact ⟨h, hsome, spares_rfl, fun _ hap ↦ hap⟩
  · next hnone =>
    obtain ⟨b, hready, -⟩ := isFilling_create h.fresh Opcode.flagClicked .entry []
    have hpoised := Poised.openScript hready.extended.fresh hready.block hready.next
    refine ⟨hpoised, rfl, hready.extended.spares, fun e hap ↦ .nothing fun id b' hb' ↦ ?_⟩
    -- What is changed in the new draft is its head, which the old one does not have.
    have hthere := hready.extended.spares id b' hb'
    cases hap with
    | nothing hspares => exact hspares id b' hthere
    | @one changed was now hwas hnow hchange hothers =>
      refine hothers id b' ?_ hthere
      rintro rfl
      cases hchange with
      | next htip =>
        obtain rfl : d.nextId = id := Option.some.inj htip
        rw [hready.new] at hb'
        exact absurd hb' nofun
      | branch hframe => exact absurd hframe nofun
      | otherwise hframe => exact absurd hframe nofun

include he hc in
/-- A command adds what a line may add. -/
theorem command_appends (h : d.Poised) (hnodup : c.slotNames.Nodup)
    (helse : c.kind = .otherwise → isElse) (line : Nat) (tokens raw : List String) :
    AppendsFrom isElse d (command embed target line c tokens raw) := by
  unfold command
  split
  · exact closeBlock_appends h line
  · next hkind => exact enterElse_appends h (helse hkind) line
  · exact declare_appends h line c.name tokens
  · split
    · exact .fail ⟨h, spares_rfl⟩
    · next hunavailable =>
      have havailable : c.isAvailableOn target = true := by simpa using hunavailable
      split
      · exact .fail ⟨h, spares_rfl⟩
      · refine LeadsTo.get_bind ?_
        dsimp only
        split
        · split
          · exact .fail ⟨h, spares_rfl⟩
          · exact define_appends h tokens
        · next hkind =>
          split
          · exact .fail ⟨h, spares_rfl⟩
          · exact statement_appends he hc havailable h hnodup (fun hne ↦ absurd hkind hne) line
              tokens raw
        · obtain ⟨hpoised, hopen, hspares, happends⟩ := ensureScript_cases h
          -- a script opened for the statement is new, so that only the statement counts
          refine LeadsTo.modify_bind ?_
          refine (statement_appends he hc havailable hpoised hnodup (fun _ ↦ hopen) line tokens
            raw).imp (fun _ e he ↦ ⟨he.1, happends e he.2⟩) fun e he ↦ ⟨he.1, fun id b hb ↦ ?_⟩
          exact he.2 id b (hspares id b hb)

end

/-- A line adds what a line may add, whatever becomes of it. -/
theorem line_appends {catalog : Catalog} (hcat : catalog.HasDistinctSlots) (target : TargetKind)
    (h : d.Poised) (source : SourceLine) :
    AppendsFrom (source.Has catalog .otherwise) d (line catalog target source) := by
  unfold line
  dsimp only
  split
  · exact .pure ⟨h, .nothing spares_rfl⟩
  · next hidle =>
    split
    · exact .pure ⟨h, .nothing spares_rfl⟩
    · next first raw htokens =>
      split
      · exact .fail ⟨h, spares_rfl⟩
      · next c hc =>
        have hgives : source.Gives catalog c raw := by
          refine ⟨first, ?_, hc⟩
          rw [SourceLine.tokens, if_neg hidle, htokens]
        have hmem := Catalog.mem_values_of_resolve? hc
        exact command_appends (expression_adds _ _ _ _) hmem h (hcat c hmem)
          (fun hkind ↦ ⟨c, raw, hgives, hkind⟩) _ _ _

end Build

/-! ### Runs -/

/-- Everything that a block says and holds stays. -/
structure Block.Lasts (b b' : Block) : Prop where
  next : ∀ id, b.next = some id → b'.next = some id
  inputs : ∀ name slot, b.inputs.find? name = some slot → b'.inputs.find? name = some slot
  fields : b'.fields = b.fields
  procedure : b'.procedure = b.procedure
  parent : b'.parent = b.parent
  shadow : b'.shadow = b.shadow
  place : b'.place = b.place

namespace Block.Lasts

variable {b b' b'' : Block}

/-- A block that stays as it is lasts. -/
theorem refl (b : Block) : b.Lasts b := ⟨fun _ h ↦ h, fun _ _ h ↦ h, rfl, rfl, rfl, rfl, rfl⟩

/-- What lasts twice lasts. -/
theorem trans (h : b.Lasts b') (h' : b'.Lasts b'') : b.Lasts b'' where
  next id hid := h'.next id (h.next id hid)
  inputs name slot hslot := h'.inputs name slot (h.inputs name slot hslot)
  fields := h'.fields.trans h.fields
  procedure := h'.procedure.trans h.procedure
  parent := h'.parent.trans h.parent
  shadow := h'.shadow.trans h.shadow
  place := h'.place.trans h.place

end Block.Lasts

namespace Draft

variable {catalog : Catalog} {target : TargetKind} {d e : Draft} {isElse : Prop}

/-- What a line makes of a block overwrites nothing. -/
theorem Change.lasts {id : BlockId} {b b' : Block} (h : Change d e isElse id b b') :
    b.Lasts b' := by
  cases h with
  | next _ hnone _ =>
    refine { Block.Lasts.refl b with next := fun id hid ↦ ?_ }
    rw [hnone] at hid
    exact absurd hid nofun
  | branch _ _ habsent _ =>
    refine { Block.Lasts.refl b with inputs := fun name slot hslot ↦ ?_ }
    rw [Dict.find?_insert_of_ne, hslot]
    rintro rfl
    rw [habsent] at hslot
    exact absurd hslot nofun
  | otherwise => exact { Block.Lasts.refl b with }

/-- A block lasts through an accepted addition. -/
theorem Appends.lasts (h : d.Appends e isElse) {id : BlockId} {b : Block}
    (hb : d.blocks.find? id = some b) : ∃ b', e.blocks.find? id = some b' ∧ b.Lasts b' := by
  cases h with
  | nothing h => exact ⟨b, h id b hb, .refl b⟩
  | @one changed was now hwas hnow hchange hothers =>
    by_cases hid : id = changed
    · subst hid
      obtain rfl := Option.some.inj (hwas.symm.trans hb)
      exact ⟨now, hnow, hchange.lasts⟩
    · exact ⟨b, hothers id b hid hb, .refl b⟩

/-- A block lasts through every line, accepted or not. -/
theorem lasts_of_appendsFrom {work : Build Unit} (h : Build.AppendsFrom isElse d work)
    {id : BlockId} {b : Block} (hb : d.blocks.find? id = some b) :
    ∃ b', (Script.run work d).2.blocks.find? id = some b' ∧ b.Lasts b' := by
  cases hrun : (Script.run work d).1 with
  | ok a => exact (h.accepted hrun).lasts hb
  | error e => exact ⟨b, h.rejected hrun id b hb, .refl b⟩

/-- The drafts that lines of a target lead to, be they accepted or rejected. -/
inductive Reached (catalog : Catalog) (target : TargetKind) : Draft → Prop where
  | start (ids : IdSource) (symbols : Symbols) : Reached catalog target { ids, symbols }
  | line {d : Draft} (h : Reached catalog target d) (source : SourceLine) :
    Reached catalog target (Script.run (Build.line catalog target source) d).2

/-- The draft after some lines, of which those that cannot be read leave what they have done. -/
def afterLines (catalog : Catalog) (target : TargetKind) (d : Draft) (sources : List SourceLine) :
    Draft :=
  sources.foldl (fun d source ↦ (Script.run (Build.line catalog target source) d).2) d

/-- Lines are read one after the other. -/
theorem afterLines_cons (d : Draft) (source : SourceLine) (sources : List SourceLine) :
    d.afterLines catalog target (source :: sources) =
      (Script.run (Build.line catalog target source) d).2.afterLines catalog target sources := by
  rw [afterLines, List.foldl_cons, afterLines]

/-- What more lines lead to is reached as well. -/
theorem Reached.afterLines (h : Reached catalog target d) (sources : List SourceLine) :
    Reached catalog target (d.afterLines catalog target sources) := by
  induction sources generalizing d with
  | nil => exact h
  | cons source sources ih =>
    rw [afterLines_cons]
    exact ih (h.line source)

/-- Every draft that lines lead to is poised. -/
theorem Reached.poised (hcat : catalog.HasDistinctSlots) (h : Reached catalog target d) :
    d.Poised := by
  induction h with
  | start ids symbols => exact poised_start ids symbols
  | line _ source ih => exact (Build.line_appends hcat target ih source).poised

/-- Whatever the next line is, the blocks of the draft stay as they are but for one addition. -/
structure IsAppendOnly (catalog : Catalog) (target : TargetKind) (d : Draft) : Prop where
  /-- An accepted line may add to one block. -/
  accepted : ∀ source, (Script.run (Build.line catalog target source) d).1 = .ok ⟨⟩ →
    d.Appends (Script.run (Build.line catalog target source) d).2 (source.Has catalog .otherwise)
  /-- A rejected line changes no block. -/
  rejected : ∀ source error, (Script.run (Build.line catalog target source) d).1 = .error error →
    d.Spares (Script.run (Build.line catalog target source) d).2
  /-- Nothing that a block says or holds is ever overwritten. -/
  lasting : ∀ sources id b, d.blocks.find? id = some b →
    ∃ b', (d.afterLines catalog target sources).blocks.find? id = some b' ∧ b.Lasts b'

/-- **Building is append-only**, also where lines are rejected. -/
theorem isAppendOnly_of_reached (hcat : catalog.HasDistinctSlots) (h : Reached catalog target d) :
    d.IsAppendOnly catalog target where
  accepted source hok := (Build.line_appends hcat target (h.poised hcat) source).accepted hok
  rejected source _ herror :=
    (Build.line_appends hcat target (h.poised hcat) source).rejected herror
  lasting sources id b hb := by
    induction sources generalizing d b with
    | nil => exact ⟨b, hb, .refl b⟩
    | cons source sources ih =>
      have hline := Build.line_appends hcat target (h.poised hcat) source
      obtain ⟨b', hb', hlasts⟩ := lasts_of_appendsFrom hline hb
      rw [afterLines_cons]
      obtain ⟨b'', hb'', hlasts'⟩ := ih (h.line source) b' hb'
      exact ⟨b'', hb'', hlasts.trans hlasts'⟩

/-- A conditional with a statement in it that stops at an expression which is none, and whose block
belongs to no script. -/
def brokenLines : List SourceLine :=
  [⟨1, "if 1 < 2"⟩, ⟨2, "show"⟩, ⟨3, "say @add(1, nothing(2))"⟩]

/-- The head of the script, the conditional with its condition, and the statement in it; then the
broken statement with what was made of its expression. -/
theorem isAppendOnly_of_reached_broken :
    ∃ d, Reached .builtin .sprite d ∧
      d.blocks.values.map Block.opcode = ["event_whenflagclicked", "control_if", "operator_lt",
        "looks_show", "looks_say", "operator_add"] ∧
      d.IsAppendOnly .builtin .sprite := by
  have hreached : Reached .builtin .sprite (afterLines .builtin .sprite {} brokenLines) :=
    (Reached.start {} {}).afterLines brokenLines
  refine ⟨_, hreached, ?_, isAppendOnly_of_reached Catalog.builtin_hasDistinctSlots hreached⟩
  decide +kernel

end Draft

end BlockScript

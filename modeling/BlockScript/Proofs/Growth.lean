import BlockScript.Script.Draft
import BlockScript.Proofs.Held
import BlockScript.Proofs.Identifier

/-!
# Drafts that grow

A draft never loses a block or the meaning of a name. `Draft.Grows` says what becomes of a draft
while a line is read: the blocks made, the blocks changed, and the names asked for. Growth composes
(`Draft.Grows.trans`), and each operation on drafts has its lemma here.

`Build.Follows` compares work on a draft with a result that was found without one: the work fails
with the same error, or it succeeds and its outcome fits the result.
-/

namespace BlockScript

/-! ### Work and results -/

namespace Build

variable {α β γ δ : Type}

/-- Work on a draft agrees with a result: it fails alike, or what comes of it fits the result. -/
inductive Follows (work : Build α) (d : Draft) :
    Except SourceError β → (β → α → Draft → Prop) → Prop where
  | fails {e : SourceError} {d' : Draft} {post : β → α → Draft → Prop}
      (run : work.run d = .error e d') : Follows work d (.error e) post
  | yields {a : α} {b : β} {d' : Draft} {post : β → α → Draft → Prop}
      (run : work.run d = .ok a d') (fits : post b a d') : Follows work d (.ok b) post

namespace Follows

variable {work : Build α} {d : Draft} {result : Except SourceError β}
  {post : β → α → Draft → Prop}

theorem ok {a : α} {b : β} (h : post b a d) : Follows (pure a) d (.ok b) post :=
  .yields rfl h

theorem fail (line : Nat) (fault : Fault) :
    Follows (Build.fail line fault : Build α) d (.error ⟨line, fault⟩) post :=
  .fails rfl

/-- Only what the work does to the draft matters. -/
theorem of_run {work' : Build α} {e : Draft} (h : Follows work e result post)
    (hrun : work'.run d = work.run e) : Follows work' d result post := by
  cases h with
  | fails run => exact .fails (hrun.trans run)
  | yields run fits => exact .yields (hrun.trans run) fits

theorem imp {post' : β → α → Draft → Prop} (h : Follows work d result post)
    (himp : ∀ b a d', post b a d' → post' b a d') : Follows work d result post' := by
  cases h with
  | fails run => exact .fails run
  | yields run fits => exact .yields run (himp _ _ _ fits)

/-- Two pieces of work one after the other agree with two results one after the other. -/
theorem bind {more : α → Build γ} {further : β → Except SourceError δ}
    {post' : δ → γ → Draft → Prop} (h : Follows work d result post)
    (hmore : ∀ b a d', post b a d' → Follows (more a) d' (further b) post') :
    Follows (work >>= more) d (result >>= further) post' := by
  cases h with
  | fails run => exact .fails (by rw [EStateM.run_bind, run])
  | yields run fits => exact (hmore _ _ _ fits).of_run (by rw [EStateM.run_bind, run])

/-- Further work that always succeeds and adds nothing to the result. -/
theorem andThen {more : α → Build γ} {post' : β → γ → Draft → Prop} (h : Follows work d result post)
    (hmore : ∀ b a d', post b a d' → Follows (more a) d' (.ok b) post') :
    Follows (work >>= more) d result post' := by
  have hbind : Follows (work >>= more) d (result >>= .ok) post' := h.bind hmore
  cases result <;> exact hbind

/-- The result goes on by itself. -/
theorem mapResult {g : β → δ} {post' : δ → α → Draft → Prop} (h : Follows work d result post)
    (hmap : ∀ b a d', post b a d' → post' (g b) a d') :
    Follows work d (result >>= fun b ↦ pure (g b)) post' := by
  cases h with
  | fails run => exact .fails run
  | yields run fits => exact .yields run (hmap _ _ _ fits)

theorem map {f : α → γ} {g : β → δ} {post' : δ → γ → Draft → Prop}
    (h : Follows work d result post) (hmap : ∀ b a d', post b a d' → post' (g b) (f a) d') :
    Follows (f <$> work) d (g <$> result) post' := by
  have hbind : Follows (work >>= fun a ↦ pure (f a)) d (result >>= fun b ↦ .ok (g b)) post' :=
    h.bind fun b a d' hpost ↦ ok (hmap b a d' hpost)
  cases result <;> exact hbind

/-- A change of the draft that cannot fail comes first. -/
theorem modify_bind {f : Draft → Draft} {more : PUnit → Build γ} {post' : β → γ → Draft → Prop}
    (h : Follows (more ⟨⟩) (f d) result post') :
    Follows (modify f >>= more) d result post' :=
  h.of_run rfl

theorem modifyGet_bind {f : Draft → α × Draft} {more : α → Build γ}
    {post' : β → γ → Draft → Prop} (h : Follows (more (f d).1) (f d).2 result post') :
    Follows (modifyGet f >>= more) d result post' :=
  h.of_run rfl

theorem get_bind {more : Draft → Build γ} {post' : β → γ → Draft → Prop}
    (h : Follows (more d) d result post') : Follows (get >>= more) d result post' :=
  h.of_run rfl

theorem set_bind {e : Draft} {more : PUnit → Build γ} {post' : β → γ → Draft → Prop}
    (h : Follows (more ⟨⟩) e result post') : Follows (set e >>= more) d result post' :=
  h.of_run rfl

theorem set {e : Draft} {b : β} {post' : β → PUnit → Draft → Prop} (h : post' b ⟨⟩ e) :
    Follows (set e) d (.ok b) post' :=
  .yields rfl h

theorem create_bind {opcode : String} {role : Role} {more : BlockId → Build γ}
    {post' : β → γ → Draft → Prop}
    (h : Follows (more d.nextId) (d.create opcode role).2 result post') :
    Follows (Build.create opcode role >>= more) d result post' :=
  h.of_run rfl

theorem warn_bind {line : Nat} {remark : Remark} {more : Unit → Build γ}
    {post' : β → γ → Draft → Prop} (h : Follows (more ⟨⟩) (d.warn line remark) result post') :
    Follows (Build.warn line remark >>= more) d result post' :=
  h.of_run rfl

theorem modify {f : Draft → Draft} {b : β} {post' : β → PUnit → Draft → Prop}
    (h : post' b ⟨⟩ (f d)) : Follows (modify f) d (.ok b) post' :=
  .yields rfl h

end Follows

end Build

namespace Draft

/-! ### Growth -/

/-- The blocks of a draft with its symbols. -/
def graph (d : Draft) : Graph := ⟨d.blocks, d.symbols⟩

/-- What of a draft the blocks of an expression leave alone: where the next block goes. -/
def desk (d : Draft) : List Frame × Option BlockId × Int × Nat :=
  (d.frames, d.script, d.nextY, d.commandCount)

/-- A draft becomes another one by changing some blocks, making some and asking for some names. -/
structure Grows (d e : Draft) (changed made : List BlockId) (asked : List Request) : Prop where
  /-- Blocks are never removed. -/
  keys : ∀ id, (e.blocks.find? id).isSome ↔ (d.blocks.find? id).isSome ∨ id ∈ made
  /-- The blocks made are new. -/
  new : ∀ id ∈ made, d.blocks.find? id = none
  /-- No block is made twice. -/
  nodup : made.Nodup
  /-- All other blocks stay as they are. -/
  kept : ∀ id, id ∉ changed → id ∉ made → e.blocks.find? id = d.blocks.find? id
  /-- Identifiers stay fresh. -/
  fresh : e.Fresh
  /-- Names keep their meaning. -/
  symbols : d.symbols.Le e.symbols
  /-- Symbols are inherited from the same tables. -/
  inherited : e.symbols.inherited = d.symbols.inherited
  /-- The tables hold what was asked for before and now. -/
  answers : ∀ before, d.symbols.Answers before → e.symbols.Answers (before ++ asked)

namespace Grows

variable {d e f : Draft} {changed changed' made made' : List BlockId}
  {asked asked' : List Request}

theorem refl (h : d.Fresh) : d.Grows d [] [] [] where
  keys id := by simp
  new := by simp
  nodup := List.nodup_nil
  kept _ _ _ := rfl
  fresh := h
  symbols := Symbols.Le.refl _
  inherited := rfl
  answers before hb := by simpa using hb

/-- The blocks made are none of those that were there. -/
theorem nodup_made (h : d.Grows e changed made asked) {ids : List BlockId} (hids : ids.Nodup)
    (hthere : ∀ id ∈ ids, (d.blocks.find? id).isSome) : (ids ++ made).Nodup := by
  refine List.nodup_append.2 ⟨hids, h.nodup, ?_⟩
  rintro id hid _ hid' rfl
  have := hthere id hid
  rw [h.new id hid'] at this
  cases this

/-- Growth composes. What the second step changes was made or changed by the first one, or is
counted as changed. -/
theorem trans (h : d.Grows e changed made asked) (h' : e.Grows f changed' made' asked')
    (hc : ∀ id ∈ changed', id ∈ changed ∨ id ∈ made) :
    d.Grows f changed (made ++ made') (asked ++ asked') where
  keys id := by rw [h'.keys, h.keys, List.mem_append, or_assoc]
  new id hid := by
    rcases List.mem_append.1 hid with hid | hid
    · exact h.new id hid
    · have hnot : ¬ (e.blocks.find? id).isSome := by simp [h'.new id hid]
      rw [h.keys, not_or] at hnot
      simpa using hnot.1
  nodup := h'.nodup_made h.nodup fun id hid ↦ (h.keys id).2 (.inr hid)
  kept id hid hmade := by
    rw [List.mem_append, not_or] at hmade
    rw [h'.kept id (fun hin ↦ (hc id hin).elim hid hmade.1) hmade.2, h.kept id hid hmade.1]
  fresh := h'.fresh
  symbols := h.symbols.trans h'.symbols
  inherited := h'.inherited.trans h.inherited
  answers before hb := by
    rw [← List.append_assoc]
    exact h'.answers _ (h.answers _ hb)

theorem weaken (h : d.Grows e changed made asked) (hc : ∀ id ∈ changed, id ∈ changed') :
    d.Grows e changed' made asked :=
  { h with kept := fun id hid ↦ h.kept id fun hin ↦ hid (hc id hin) }

/-- Growth depends on the blocks and the symbols of a draft alone. -/
theorem rebase {d' : Draft} (h : d.Grows e changed made asked) (hb : d'.blocks = d.blocks)
    (hs : d'.symbols = d.symbols) : d'.Grows e changed made asked :=
  { h with
    keys := by simpa only [hb] using h.keys
    new := by simpa only [hb] using h.new
    kept := by simpa only [hb] using h.kept
    symbols := by simpa only [hs] using h.symbols
    inherited := by simpa only [hs] using h.inherited
    answers := by simpa only [hs] using h.answers }

theorem perm (h : d.Grows e changed made asked) (hm : made.Perm made')
    (ha : ∀ r, r ∈ asked' ↔ r ∈ asked) : d.Grows e changed made' asked' :=
  { h with
    keys := fun id ↦ by rw [h.keys, hm.mem_iff]
    new := fun id hid ↦ h.new id (hm.mem_iff.2 hid)
    nodup := hm.nodup_iff.1 h.nodup
    kept := fun id hid hmade ↦ h.kept id hid fun hin ↦ hmade (hm.mem_iff.1 hin)
    answers := fun before hb ↦ (h.answers before hb).congr fun r ↦ by simp [ha] }

/-- What is held by the draft before and was not changed is held by the draft after. -/
theorem keeps (h : d.Grows e changed made asked) {ids : List BlockId}
    (hids : ∀ id ∈ ids, (d.blocks.find? id).isSome ∧ id ∉ changed) :
    d.graph.Keeps e.graph ids where
  blocks id hid := by
    obtain ⟨hthere, hch⟩ := hids id hid
    refine h.kept id hch fun hmade ↦ ?_
    rw [h.new id hmade] at hthere
    cases hthere
  symbols := h.symbols

end Grows

theorem Fresh.of_keys {d e : Draft} (h : d.Fresh)
    (hkeys : ∀ id, (e.blocks.find? id).isSome → (d.blocks.find? id).isSome)
    (hids : d.ids.drawn ≤ e.ids.drawn) : e.Fresh := by
  intro id b hb
  obtain ⟨b', hb'⟩ := Option.isSome_iff_exists.1 (hkeys id (by simp [hb]))
  obtain ⟨n, hn, rfl⟩ := h id b' hb'
  exact ⟨n, Nat.le_trans hn hids, rfl⟩

/-- A draft with the same blocks, identifiers and symbols is no growth at all. -/
theorem Grows.of_eq {d e : Draft} (h : d.Fresh) (hb : e.blocks = d.blocks) (hi : e.ids = d.ids)
    (hs : e.symbols = d.symbols) : d.Grows e [] [] [] where
  keys id := by simp [hb]
  new := by simp
  nodup := List.nodup_nil
  kept id _ _ := by rw [hb]
  fresh := h.of_keys (fun id hid ↦ by rwa [hb] at hid) (Nat.le_of_eq (by rw [hi]))
  symbols := by rw [hs]; exact Symbols.Le.refl _
  inherited := by rw [hs]
  answers before hbefore := by simpa [hs] using hbefore

/-- Changing a block. -/
theorem Grows.update {d : Draft} (h : d.Fresh) (id : BlockId) (f : Block → Block) :
    d.Grows (d.update id f) [id] [] [] where
  keys other := by
    simp only [Draft.update, Dict.find?_modify, List.not_mem_nil, or_false]
    split <;> simp
  new := by simp
  nodup := List.nodup_nil
  kept other hother _ := by
    rw [Draft.update, Dict.find?_modify, if_neg fun heq ↦ hother (by simp [heq])]
  fresh := by
    refine h.of_keys (fun other hother ↦ ?_) (Nat.le_refl _)
    simp only [Draft.update, Dict.find?_modify] at hother
    split at hother <;> simpa using hother
  symbols := Symbols.Le.refl _
  inherited := rfl
  answers before hbefore := by simpa [Draft.update] using hbefore

theorem keeps_update (d : Draft) {id : BlockId} (f : Block → Block) {ids : List BlockId}
    (h : id ∉ ids) : d.graph.Keeps (d.update id f).graph ids :=
  Graph.Keeps.modify d.graph f h

/-- Asking for a name. -/
theorem Grows.intern {d : Draft} (h : d.Fresh) (kind : SymbolKind) (name initial : String) :
    d.Grows (d.intern kind name initial).2 [] [] [(kind, name)] where
  keys id := by simp [Draft.intern]
  new := by simp
  nodup := List.nodup_nil
  kept _ _ _ := rfl
  fresh := h.of_keys (fun _ hid ↦ hid) (Symbols.drawn_le_intern ..)
  symbols := d.symbols.le_intern kind name initial d.ids
  inherited := Symbols.inherited_intern ..
  answers before hbefore := hbefore.intern kind name initial d.ids

/-! ### Appending -/

/-- Without an open script there is nothing that a block could come after. -/
theorem append_closed {d : Draft} (hframes : d.frames = []) (hscript : d.script = none)
    (id : BlockId) : d.append id = d := by
  simp only [append, hframes, hscript]

theorem append_script {d : Draft} {last : BlockId} (hframes : d.frames = [])
    (hscript : d.script = some last) (id : BlockId) :
    d.append id = ({ d with script := some id } : Draft).link last id := by
  simp only [append, hframes, hscript]

section

variable {d : Draft} {frame : Frame} {outer : List Frame} (hframes : d.frames = frame :: outer)
include hframes

theorem append_link {last : BlockId} (hlast : frame.branches.active.last = some last)
    (id : BlockId) : d.append id = ({ d with
      frames := { frame with branches := frame.branches.extend id } :: outer } : Draft).link
        last id := by
  simp only [append, hframes, hlast]

theorem append_hang (hlast : frame.branches.active.last = none) (id : BlockId) :
    d.append id = (({ d with
      frames := { frame with branches := frame.branches.extend id } :: outer } : Draft).setInput
        frame.block frame.branches.active.input (.block id)).setParent id frame.block := by
  simp only [append, hframes, hlast]

end

/-- A block that is appended is lost, comes after the last block of the cursor that moves on to it,
or starts the active branch of the innermost nesting block. -/
theorem append_cases (d : Draft) (id : BlockId) :
    d.append id = d ∨ ∃ frames script,
      (∃ last, d.append id = ({ d with frames, script } : Draft).link last id) ∨
      ∃ frame ∈ d.frames, ∃ input, d.append id =
        (({ d with frames, script } : Draft).setInput frame.block input (.block id)).setParent id
          frame.block := by
  cases hframes : d.frames with
  | nil =>
    cases hscript : d.script with
    | none => exact .inl (append_closed hframes hscript id)
    | some last => exact .inr ⟨_, _, .inl ⟨last, append_script hframes hscript id⟩⟩
  | cons frame outer =>
    cases hlast : frame.branches.active.last with
    | none =>
      exact .inr ⟨_, _, .inr ⟨frame, List.mem_cons_self, _, append_hang hframes hlast id⟩⟩
    | some last => exact .inr ⟨_, _, .inl ⟨last, append_link hframes hlast id⟩⟩

/-! ### New blocks -/

theorem find?_create (d : Draft) (opcode : String) (role : Role) (id : BlockId) :
    (d.create opcode role).2.blocks.find? id =
      if id = d.nextId then some (d.newBlock opcode role) else d.blocks.find? id :=
  Dict.find?_insert ..

/-- Making a block. -/
theorem Grows.create {d : Draft} (h : d.Fresh) (opcode : String) (role : Role) :
    d.Grows (d.create opcode role).2 [] [d.nextId] [] where
  keys id := by
    rw [find?_create]
    split
    · next heq => simp [heq]
    · next hne => simp [hne]
  new id hid := by
    rw [List.mem_singleton.1 hid]
    exact h.find?_next
  nodup := by simp
  kept id _ hid := by
    rw [find?_create, if_neg fun heq ↦ hid (by simp [heq])]
  -- the new block has the next number, and the others have theirs from before
  fresh id b hb := by
    rw [find?_create] at hb
    split at hb
    · next heq => exact ⟨d.ids.drawn + 1, Nat.le_refl _, heq⟩
    · obtain ⟨n, hn, heq⟩ := h id b hb
      exact ⟨n, Nat.le_succ_of_le hn, heq⟩
  symbols := Symbols.Le.refl _
  inherited := rfl
  answers before hbefore := by simpa [Draft.create] using hbefore

/-- How a block is tied to the graph when it is made. -/
def roleSetting (d : Draft) : Role → Setting
  | .entry => { place := some ⟨scriptX, d.nextY⟩ }
  | .statement => {}
  | .value owner => { parent := some owner }
  | .shadow owner => { parent := some owner, shadow := true }

/-- A new block is a tree of its own. -/
theorem held_create (d : Draft) (opcode : String) (role : Role) :
    (Chain.cons d.nextId { opcode } .nil .nil).Held (d.create opcode role).2.graph
      (d.roleSetting role) := by
  refine ⟨d.newBlock opcode role, ?_, ?_, ?_, fun name ↦ ?_, trivial, trivial⟩
  · exact (find?_create ..).trans (if_pos rfl)
  · cases role <;> exact ⟨rfl, rfl, rfl, rfl, rfl, rfl⟩
  · cases role <;> rfl
  · cases role <;> simp [Slots.names, newBlock]

end Draft

end BlockScript

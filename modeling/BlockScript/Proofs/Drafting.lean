import BlockScript.Proofs.Planting
import BlockScript.Proofs.Sheet

/-!
# Making the blocks of lines

A draft and a sheet go through the same lines side by side. `Sheet.Drafted` ties them together: the
blocks of the draft are those of the scripts of the sheet, each of them once, every script is held
by the draft, and the two cursors of the draft stand at the end of the open script and of its open
nesting blocks. Each line keeps this (`Build.line_follows`), so that the blocks made from the lines
of a target are the trees that reading these lines gives (`Build.lines_follows`).
-/

namespace BlockScript

/-! ### Cursors -/

namespace Branches

/-- The names of the branches that are still to be filled, the active one included. -/
def pending : Branches → List String
  | single body => [body.input]
  | ifThen body => [body.input, "SUBSTACK2"]
  | ifElse _ otherwise true => [otherwise.input]
  | ifElse body otherwise false => [body.input, otherwise.input]

/-- The branches of a frame are those of a layer whose chain ends with the block `last`. -/
def Fits (last : Option BlockId) : Branches → Branches → Prop
  | single body, single body' => body.input = body'.input ∧ body.last = last
  | ifThen body, ifThen body' => body.input = body'.input ∧ body.last = last
  | ifElse body otherwise inElse, ifElse body' otherwise' inElse' =>
    body.input = body'.input ∧ otherwise.input = otherwise'.input ∧ inElse = inElse' ∧
      if inElse then otherwise.last = last else body.last = last ∧ otherwise.last = none
  | _, _ => False

variable {last : Option BlockId} {b b' : Branches}

theorem active_notMem {names : List String} (h : (names ++ b.pending).Nodup) :
    b.active.input ∉ names := by
  have hmem : b.active.input ∈ b.pending := by
    rcases b with body | body | ⟨body, otherwise, - | -⟩ <;> simp [pending, active]
  exact fun hin ↦ (List.nodup_append.1 h).2.2 _ hin _ hmem rfl

theorem Fits.active (h : b.Fits last b') :
    b.active.input = b'.active.input ∧ b.active.last = last := by
  cases b <;> cases b' <;> try exact h.elim
  · exact h
  · exact h
  · obtain ⟨hbody, hother, rfl, hlast⟩ := h
    rename_i inElse _ _
    cases inElse
    · exact ⟨hbody, hlast.1⟩
    · exact ⟨hother, hlast⟩

theorem Fits.extend (h : b.Fits last b') (id : BlockId) : (b.extend id).Fits (some id) b' := by
  cases b <;> cases b' <;> try exact h.elim
  · exact ⟨h.1, rfl⟩
  · exact ⟨h.1, rfl⟩
  · obtain ⟨hbody, hother, rfl, hlast⟩ := h
    rename_i inElse _ _
    cases inElse
    · exact ⟨hbody, hother, rfl, rfl, hlast.2⟩
    · exact ⟨hbody, hother, rfl, rfl⟩

theorem fits_ofCommand (command : Command) :
    (ofCommand command).Fits none (ofCommand command) := by
  unfold ofCommand
  split
  · split
    · exact ⟨rfl, rfl⟩
    · split
      · exact ⟨rfl, rfl, rfl, rfl, rfl⟩
      · exact ⟨rfl, rfl⟩
  · exact ⟨rfl, rfl⟩

/-- Both sides take an else alike, and the branch after it is empty. -/
theorem Fits.enterElse (h : b.Fits last b') :
    (∃ fault, b.enterElse = .error fault ∧ b'.enterElse = .error fault) ∨
      ∃ c c', b.enterElse = .ok c ∧ b'.enterElse = .ok c' ∧ c.Fits none c' ∧
        b'.pending = b'.active.input :: c'.pending := by
  cases b <;> cases b' <;> try exact h.elim
  · exact .inl ⟨_, rfl, rfl⟩
  · exact .inr ⟨_, _, rfl, rfl, ⟨h.1, rfl, rfl, rfl⟩, rfl⟩
  · obtain ⟨hbody, hother, rfl, hlast⟩ := h
    rename_i inElse _ _
    cases inElse
    · exact .inr ⟨_, _, rfl, rfl, ⟨hbody, hother, rfl, hlast.2⟩, rfl⟩
    · exact .inl ⟨_, rfl, rfl⟩

theorem Fits.isIfThen (h : b.Fits last b') :
    (∃ body body', b = .ifThen body ∧ b' = .ifThen body') ∨
      (∀ body, b ≠ .ifThen body) ∧ ∀ body, b' ≠ .ifThen body := by
  cases b <;> cases b' <;> try exact h.elim
  · exact .inr ⟨nofun, nofun⟩
  · exact .inl ⟨_, _, rfl, rfl⟩
  · exact .inr ⟨nofun, nofun⟩

end Branches

/-- The frame stands for the layer, whose chain ends with the block `last`. -/
structure Frame.Fits (last : Option BlockId) (f : Frame) (l : Layer BlockId) : Prop where
  block : f.block = l.tag
  command : f.command = l.command
  line : f.line = l.line
  branches : f.branches.Fits last l.branches

/-- The frames and the script of a draft point to the ends of the chains of an open script, the
innermost of which ends with the block `last`. -/
def OpenScript.Cursor (script : Option BlockId) :
    (last : Option BlockId) → List (Layer BlockId) → List Frame → Prop
  | last, [], frames => frames = [] ∧ script = last
  | last, l :: ls, frames =>
    ∃ f fs, frames = f :: fs ∧ f.Fits last l ∧ Cursor script (some l.tag) ls fs

namespace OpenScript.Cursor

variable {script last : Option BlockId} {ls : List (Layer BlockId)} {frames : List Frame}

/-- There is a frame for each layer. -/
theorem isEmpty (h : OpenScript.Cursor script last ls frames) : frames.isEmpty = ls.isEmpty := by
  cases ls with
  | nil => rw [h.1]; rfl
  | cons l ls => obtain ⟨f, fs, rfl, -, -⟩ := h; rfl

/-- The script of the draft is open if the outermost chain has a block. -/
theorem isSome (h : OpenScript.Cursor script last ls frames) (hlast : ls = [] → last.isSome) :
    script.isSome := by
  induction ls generalizing last frames with
  | nil => rw [h.2]; exact hlast rfl
  | cons l ls ih =>
    obtain ⟨f, fs, rfl, -, hrest⟩ := h
    exact ih hrest fun _ ↦ rfl

end OpenScript.Cursor

/-! ### Drafts of sheets -/

/-- The height of a script by its number. -/
def scriptHeight (n : Nat) : Int := 64 + scriptStep * n

namespace Sheet

variable {α : Type}

/-- The tags of all scripts. -/
def tags (σ : Sheet α) : List α := σ.scripts.flatMap Chain.tags

/-- All names asked for. -/
def asked (σ : Sheet α) : List Request := σ.declared ++ σ.scripts.flatMap Chain.asked

/-- Where the next block goes. -/
def Cursor (σ : Sheet BlockId) (script : Option BlockId) (frames : List Frame) : Prop :=
  match σ.current with
  | some o => OpenScript.Cursor script o.chain.last o.layers frames
  | none => script = none ∧ frames = []

/-- The draft holds the scripts of the sheet and nothing else, and inherits the given tables. -/
structure Drafted (σ : Sheet BlockId) (outer : List SymbolTables) (d : Draft) : Prop where
  /-- Identifiers are fresh. -/
  fresh : d.Fresh
  /-- The blocks are those of the scripts. -/
  keys : ∀ id, (d.blocks.find? id).isSome ↔ id ∈ σ.tags
  /-- No block belongs to two places. -/
  nodup : σ.tags.Nodup
  /-- Each script is held, at its own height. -/
  held : ∀ (i : Nat) (c : Chain BlockId), σ.scripts[i]? = some c →
    c.Held d.graph { place := some ⟨scriptX, scriptHeight i⟩ }
  /-- No script is empty. -/
  filled : ∀ c ∈ σ.scripts, c ≠ .nil
  /-- The place of the next script. -/
  nextY : d.nextY = scriptHeight σ.scripts.length
  /-- The place of the next block. -/
  cursor : σ.Cursor d.script d.frames
  /-- The branches still to be filled have names of their own. -/
  names : ∀ o ∈ σ.current, ∀ l ∈ o.layers, (l.slots.names ++ l.branches.pending).Nodup
  /-- The names asked for are those of the sheet. -/
  answers : d.symbols.Answers σ.asked
  /-- The inherited tables stay the same. -/
  inherited : d.symbols.inherited = outer

theorem scripts_current {σ : Sheet α} {o : OpenScript α} (h : σ.current = some o) :
    σ.scripts = σ.closed ++ [o.whole] := by
  simp [scripts, h]

theorem drafted_empty (ids : IdSource) (outer : List SymbolTables) :
    ({} : Sheet BlockId).Drafted outer { ids, symbols := ⟨{}, outer⟩ } where
  fresh := Draft.fresh_of_empty rfl
  keys id := by simp [tags, scripts]
  nodup := by simp [tags, scripts]
  held i c h := by simp [scripts] at h
  filled := by simp [scripts]
  nextY := rfl
  cursor := ⟨rfl, rfl⟩
  names := by simp
  answers := by simpa [asked, scripts] using Symbols.answers_empty outer
  inherited := rfl

end Sheet

/-! ### Changes at the end of the open script -/

/-- The chain in a layer may change as long as it starts with the same block. -/
theorem Layer.fill_held_of {g h : Graph} {l : Layer BlockId} {c c' : Chain BlockId}
    (hstart : c.start = c'.start) (hc : ∀ s, c.Held g s → c'.Held h s)
    (hk : g.Keeps h l.tags) (s : Setting) (hheld : (l.fill c).Held g s) :
    (l.fill c').Held h s := by
  have hsame : (Chain.cons l.tag l.node (l.slots.branch l.branches.active.input c) .nil).start =
      (Chain.cons l.tag l.node (l.slots.branch l.branches.active.input c') .nil).start := rfl
  refine Chain.Held.append_of hsame (fun s hl ↦ ?_) l.before hk.left hheld
  have hk' := hk.right
  obtain ⟨b, hb, hsaid, hnext, hnames, hslots, -⟩ := hl
  have hfind : h.blocks.find? l.tag = some b := by rw [hk'.blocks _ List.mem_cons_self, hb]
  have hkeep := hk'.tail
  -- a branch is a slot only if its chain has a block, so both chains have one or neither has
  cases c with
  | nil =>
    cases c' with
    | nil =>
      exact ⟨b, hfind, hsaid.keep hk.symbols, hnext, hnames, hslots.keep hkeep fun _ _ ↦ rfl,
        trivial⟩
    | cons => cases hstart
  | cons tag node slots rest =>
    cases c' with
    | nil => cases hstart
    | cons tag' node' slots' rest' =>
      obtain rfl := Option.some.inj hstart
      obtain ⟨hold, ⟨slot, hslot, hshows⟩, hvalue, -, -⟩ := Slots.held_append.1 hslots
      refine ⟨b, hfind, hsaid.keep hk.symbols, hnext, fun name ↦ ?_, ?_, trivial⟩
      · simpa only [Slots.branch_cons, Slots.names_append, Content.names_slot] using hnames name
      · refine Slots.held_append.2 ⟨hold.keep hkeep fun _ _ ↦ rfl, ⟨slot, hslot, ?_⟩, hc _ hvalue,
          trivial, trivial⟩
        exact ⟨hshows.constant, hshows.value, hshows.shadow⟩

/-- The chain that an open script ends with may change as long as it starts with the same
block. -/
theorem OpenScript.whole_held_of {g h : Graph} (ls : List (Layer BlockId)) :
    ∀ {c c' : Chain BlockId}, c.start = c'.start → (∀ s, c.Held g s → c'.Held h s) →
      g.Keeps h (outerTags ls) → ∀ s, (⟨ls, c⟩ : OpenScript BlockId).whole.Held g s →
        (⟨ls, c'⟩ : OpenScript BlockId).whole.Held h s := by
  induction ls with
  | nil => exact fun _ hc _ s hheld ↦ hc s hheld
  | cons l ls ih =>
    intro c c' hstart hc hk s hheld
    refine ih (Chain.start_append_cons ..) (fun s ↦ ?_) hk.left s hheld
    exact Layer.fill_held_of hstart hc hk.right s

namespace Sheet

variable {σ : Sheet BlockId} {outer : List SymbolTables} {d e : Draft} {o o' : OpenScript BlockId}

theorem mem_tags_of_closed {c : Chain BlockId} (hc : c ∈ σ.closed) {id : BlockId}
    (hid : id ∈ c.tags) : id ∈ σ.tags :=
  List.mem_flatMap.2 ⟨c, List.mem_append_left _ hc, hid⟩

/-- A finished script shares no block with the open one. -/
theorem Drafted.closed_apart (h : σ.Drafted outer d) (ho : σ.current = some o)
    {c : Chain BlockId} (hc : c ∈ σ.closed) {id : BlockId} (hid : id ∈ c.tags) :
    id ∉ o.whole.tags := by
  have hnd := h.nodup
  rw [tags, scripts_current ho, List.flatMap_append, List.nodup_append,
    List.flatMap_singleton] at hnd
  exact fun hopen ↦ hnd.2.2 id (List.mem_flatMap.2 ⟨c, hc, hid⟩) id hopen rfl

/-- The open script goes on: some blocks are made and appended to it, and only blocks of it are
changed. -/
theorem Drafted.advance (h : σ.Drafted outer d) (ho : σ.current = some o)
    {changed made : List BlockId} {asked : List Request} (hgrows : d.Grows e changed made asked)
    (hchanged : ∀ id ∈ changed, id ∈ o.whole.tags) (htags : o'.whole.tags = o.whole.tags ++ made)
    (hasked : ∀ r, r ∈ o'.whole.asked ↔ r ∈ o.whole.asked ∨ r ∈ asked)
    (hheld : ∀ s, o.whole.Held d.graph s → o'.whole.Held e.graph s) (hne : o'.whole ≠ .nil)
    (hY : e.nextY = d.nextY) (hcursor : OpenScript.Cursor e.script o'.chain.last o'.layers e.frames)
    (hnames : ∀ l ∈ o'.layers, (l.slots.names ++ l.branches.pending).Nodup) :
    ({ σ with current := some o' } : Sheet BlockId).Drafted outer e := by
  -- the other scripts come first and stay, the open one is the last
  have hold : σ.scripts = σ.closed ++ [o.whole] := scripts_current ho
  have hnew : ({ σ with current := some o' } : Sheet BlockId).scripts = σ.closed ++ [o'.whole] :=
    scripts_current rfl
  have hall : ({ σ with current := some o' } : Sheet BlockId).tags = σ.tags ++ made := by
    simp [tags, hold, hnew, htags]
  have hmem : ∀ r, r ∈ ({ σ with current := some o' } : Sheet BlockId).asked ↔
      r ∈ σ.asked ++ asked := by
    intro r
    simp only [Sheet.asked, hold, hnew, List.flatMap_append, List.flatMap_singleton,
      List.mem_append, hasked]
    tauto
  refine ⟨hgrows.fresh, fun id ↦ ?_, ?_, fun i c hi ↦ ?_, fun c hc ↦ ?_, ?_, hcursor, ?_, ?_,
    hgrows.inherited.trans h.inherited⟩
  · rw [hgrows.keys, h.keys, hall, List.mem_append]
  · rw [hall]
    exact hgrows.nodup_made h.nodup fun id ↦ (h.keys id).2
  · rw [hnew, List.getElem?_append] at hi
    split at hi
    · next hlt =>
      have hheldc := h.held i c (by rw [hold, List.getElem?_append, if_pos hlt]; exact hi)
      have hc : c ∈ σ.closed := List.mem_of_getElem? hi
      -- what is changed is in the open script, so a closed one is held as before
      exact hheldc.keep (hgrows.keeps fun id hid ↦ ⟨(h.keys id).2 (mem_tags_of_closed hc hid),
        fun hch ↦ h.closed_apart ho hc hid (hchanged id hch)⟩)
    · next hlt =>
      obtain ⟨hi0, rfl⟩ : i - σ.closed.length = 0 ∧ o'.whole = c := by
        cases hdiff : i - σ.closed.length <;> simp_all
      refine hheld _ (h.held i o.whole ?_)
      rw [hold, List.getElem?_append, if_neg hlt, hi0]
      rfl
  · rw [hnew] at hc
    rcases List.mem_append.1 hc with hc | hc
    · exact h.filled c (by rw [hold]; exact List.mem_append_left _ hc)
    · rw [List.mem_singleton.1 hc]
      exact hne
  · rw [hY, h.nextY, hold, hnew]
    simp
  · rintro _ ⟨⟩
    exact hnames
  · exact (hgrows.answers _ h.answers).congr fun r ↦ (hmem r).symm

/-- A new script starts with a tree of its own. -/
theorem Drafted.start (h : σ.Drafted outer d) {t : Chain BlockId}
    (hgrows : d.Grows e [] t.tags t.asked)
    (hheld : t.Held e.graph { place := some ⟨scriptX, d.nextY⟩ }) (hne : t ≠ .nil)
    (hY : e.nextY = d.nextY + scriptStep) (hscript : e.script = t.last) (hframes : e.frames = []) :
    (σ.start t).Drafted outer e := by
  have hnew : (σ.start t).scripts = σ.scripts ++ [t] := rfl
  have hall : (σ.start t).tags = σ.tags ++ t.tags := by simp [tags, hnew]
  refine ⟨hgrows.fresh, fun id ↦ ?_, ?_, fun i c hi ↦ ?_, fun c hc ↦ ?_, ?_, ⟨hframes, hscript⟩, ?_,
    ?_, hgrows.inherited.trans h.inherited⟩
  · rw [hgrows.keys, h.keys, hall, List.mem_append]
  · rw [hall]
    exact hgrows.nodup_made h.nodup fun id ↦ (h.keys id).2
  · rw [hnew, List.getElem?_append] at hi
    split at hi
    · -- scripts written before are kept, since only new blocks were made
      refine (h.held i c hi).keep (hgrows.keeps fun id hid ↦ ⟨(h.keys id).2 ?_, by simp⟩)
      exact List.mem_flatMap.2 ⟨c, List.mem_of_getElem? hi, hid⟩
    · next hlt =>
      obtain ⟨hi0, rfl⟩ : i - σ.scripts.length = 0 ∧ t = c := by
        cases hdiff : i - σ.scripts.length <;> simp_all
      have hlen : i = σ.scripts.length := by omega
      rw [hlen, ← h.nextY]
      exact hheld
  · rw [hnew] at hc
    rcases List.mem_append.1 hc with hc | hc
    · exact h.filled c hc
    · rw [List.mem_singleton.1 hc]
      exact hne
  · rw [hY, h.nextY, hnew]
    simp only [scriptHeight, scriptStep, List.length_append, List.length_singleton]
    omega
  · rintro _ ⟨⟩ l hl
    cases hl
  · refine (hgrows.answers _ h.answers).congr fun r ↦ ?_
    simp only [asked, hnew, List.flatMap_append, List.flatMap_singleton, List.mem_append]
    exact or_assoc

end Sheet

/-! ### Appending a block -/

namespace OpenScript

variable {α : Type} (ls : List (Layer α)) (before : Chain α)

theorem tags_end (c : Chain α) : (⟨ls, before.append c⟩ : OpenScript α).whole.tags =
    outerTags ls ++ before.tags ++ c.tags := by
  rw [tags_whole, Chain.tags_append, List.append_assoc]

theorem mem_asked_end (c : Chain α) (r : Request) :
    r ∈ (⟨ls, before.append c⟩ : OpenScript α).whole.asked ↔
      r ∈ outerAsked ls ++ before.asked ∨ r ∈ c.asked := by
  rw [asked_whole, Chain.asked_append, ← List.append_assoc, List.mem_append]

theorem append_end (last : α) (node : Node) (slots : Slots α) (c : Chain α) :
    (⟨ls, before.append (.cons last node slots .nil)⟩ : OpenScript α).append c =
      ⟨ls, before.append (.cons last node slots c)⟩ := by
  rw [append, Chain.append_assoc]
  rfl

end OpenScript

/-- The last block of an open script and what comes after it may change together. -/
theorem OpenScript.tie {g h : Graph} (ls : List (Layer BlockId)) (before : Chain BlockId)
    {id : BlockId} {node node' : Node} {slots slots' : Slots BlockId} {t t' : Chain BlockId}
    (hk : g.Keeps h (outerTags ls ++ before.tags))
    (hstep : ∀ s, (Chain.cons id node slots t).Held g s → (Chain.cons id node' slots' t').Held h s)
    (s : Setting)
    (hheld : (⟨ls, before.append (.cons id node slots t)⟩ : OpenScript BlockId).whole.Held g s) :
    (⟨ls, before.append (.cons id node' slots' t')⟩ : OpenScript BlockId).whole.Held h s := by
  refine whole_held_of ls (Chain.start_append_cons ..) (fun s ↦ ?_) hk.left s hheld
  have hstart : (Chain.cons id node slots t).start = (Chain.cons id node' slots' t').start := rfl
  exact Chain.Held.append_of hstart hstep before hk.right

namespace Draft

/-- A tree with no parent is put after a block. -/
theorem held_link {e : Draft} {id last : BlockId} {node node' : Node} {slots slots' : Slots BlockId}
    {s : Setting} (hlast : (Chain.cons last node' slots' .nil).Held e.graph s)
    (ht : (Chain.cons id node slots .nil).Held e.graph {})
    (hnd : ((Chain.cons last node' slots' .nil).tags ++
      (Chain.cons id node slots .nil).tags).Nodup) :
    (Chain.cons last node' slots' (.cons id node slots .nil)).Held (e.link last id).graph s := by
  obtain ⟨hnd1, hnd2, hdis⟩ := List.nodup_append.1 hnd
  have hne : last ≠ id := hdis last List.mem_cons_self id List.mem_cons_self
  have hmoved := ht.setParent hnd2 last
  have hkept := hlast.keep (Graph.Keeps.modify e.graph
    (fun b : Block ↦ { b with parent := some last }) fun hin ↦
      hdis id hin id List.mem_cons_self rfl)
  have hdone := hkept.link hnd1 hmoved fun hin ↦ hdis last List.mem_cons_self last hin rfl
  have hcomm := e.blocks.modify_comm hne (fun b : Block ↦ { b with next := some id })
    fun b : Block ↦ { b with parent := some last }
  simp only [Draft.graph, Draft.link, Draft.setParent, Draft.update, hcomm]
  exact hdone

/-- A tree with no parent is put into a slot of a block. -/
theorem held_hang {e : Draft} {id owner : BlockId} {node node' : Node}
    {slots slots' : Slots BlockId} {s : Setting} {input : String}
    (howner : (Chain.cons owner node' slots' .nil).Held e.graph s)
    (ht : (Chain.cons id node slots .nil).Held e.graph {}) (hnew : input ∉ slots'.names)
    (hnd : ((Chain.cons owner node' slots' .nil).tags ++
      (Chain.cons id node slots .nil).tags).Nodup) :
    (Chain.cons owner node' (slots'.branch input (.cons id node slots .nil)) .nil).Held
      ((e.setInput owner input (.block id)).setParent id owner).graph s := by
  obtain ⟨hnd1, hnd2, hdis⟩ := List.nodup_append.1 hnd
  have hne : owner ≠ id := hdis owner List.mem_cons_self id List.mem_cons_self
  have hmoved := ht.setParent hnd2 owner
  have hkept := howner.keep (Graph.Keeps.modify e.graph
    (fun b : Block ↦ { b with parent := some owner }) fun hin ↦
      hdis id hin id List.mem_cons_self rfl)
  have hshows : (Slot.block id).Shows none (.cons id node slots .nil) .nil := ⟨rfl, rfl, rfl⟩
  have hdone := hkept.addSlot hnd1 input hnew hshows hmoved trivial
    (fun hin ↦ hdis owner List.mem_cons_self owner hin rfl) (by simp [Chain.tags])
  have hcomm := e.blocks.modify_comm hne
    (fun b : Block ↦ { b with inputs := b.inputs.insert input (.block id) })
    fun b : Block ↦ { b with parent := some owner }
  simp only [Draft.graph, Draft.setInput, Draft.setParent, Draft.update, hcomm]
  exact hdone

section

variable {d d' : Draft} (h : d.Fresh) (hblocks : d'.blocks = d.blocks) (hids : d'.ids = d.ids)
  (hsymbols : d'.symbols = d.symbols)
include h hblocks hids hsymbols

/-- The cursors move and two blocks are linked. -/
theorem Grows.link (last id : BlockId) : d.Grows (d'.link last id) [last, id] [] [] := by
  have hmoved : d.Grows d' [last, id] [] [] :=
    (Grows.of_eq h hblocks hids hsymbols).weaken (by simp)
  have hfirst := hmoved.trans (Grows.update hmoved.fresh last fun b ↦ { b with next := some id })
    (by simp)
  exact hfirst.trans (Grows.update hfirst.fresh id _) (by simp)

/-- The cursors move and a block is put into a slot of another one. -/
theorem Grows.hang (owner id : BlockId) (input : String) (slot : Slot) :
    d.Grows ((d'.setInput owner input slot).setParent id owner) [owner, id] [] [] := by
  have hmoved : d.Grows d' [owner, id] [] [] :=
    (Grows.of_eq h hblocks hids hsymbols).weaken (by simp)
  have hfirst := hmoved.trans (Grows.update hmoved.fresh owner
    fun b ↦ { b with inputs := b.inputs.insert input slot }) (by simp)
  exact hfirst.trans (Grows.update hfirst.fresh id _) (by simp)

end

theorem desk_eq {d e : Draft} (h : e.desk = d.desk) :
    e.frames = d.frames ∧ e.script = d.script ∧ e.nextY = d.nextY := by
  simp only [desk, Prod.mk.injEq] at h
  exact ⟨h.1, h.2.1, h.2.2.1⟩

end Draft

namespace Sheet

variable {σ : Sheet BlockId} {outer : List SymbolTables} {d e : Draft} {o : OpenScript BlockId}

theorem Drafted.mem_blocks (h : σ.Drafted outer d) (ho : σ.current = some o) {id : BlockId}
    (hid : id ∈ o.whole.tags) : (d.blocks.find? id).isSome := by
  rw [h.keys, tags, scripts_current ho]
  simp [hid]

theorem Drafted.whole_ne_nil (h : σ.Drafted outer d) (ho : σ.current = some o) :
    o.whole ≠ .nil :=
  h.filled _ (by simp [scripts_current ho])

/-- The open script and a tree planted by itself have no block in common. -/
theorem Drafted.nodup_append (h : σ.Drafted outer d) (ho : σ.current = some o)
    {t : Chain BlockId} {s : Setting} (hplant : d.Plants e t s) :
    (o.whole.tags ++ t.tags).Nodup := by
  have hnd := h.nodup
  rw [tags, scripts_current ho, List.flatMap_append, List.nodup_append,
    List.flatMap_singleton] at hnd
  exact hplant.grows.nodup_made hnd.2.1 fun _ ↦ h.mem_blocks ho

theorem Drafted.keeps_whole (h : σ.Drafted outer d) (ho : σ.current = some o)
    {t : Chain BlockId} {s : Setting} (hplant : d.Plants e t s) :
    d.graph.Keeps e.graph o.whole.tags :=
  hplant.grows.keeps fun _ hid ↦ ⟨h.mem_blocks ho hid, by simp⟩

/-- Planting a tree does not move the cursors. -/
theorem Drafted.cursor_plants (h : σ.Drafted outer d) (ho : σ.current = some o)
    {t : Chain BlockId} {s : Setting} (hplant : d.Plants e t s) :
    OpenScript.Cursor e.script o.chain.last o.layers e.frames := by
  obtain ⟨hframes, hscript, -⟩ := Draft.desk_eq hplant.desk
  have hcursor := h.cursor
  simp only [Cursor, ho] at hcursor
  rwa [hframes, hscript]

section

variable {last : BlockId} {node node' : Node} {slots slots' : Slots BlockId} {t t' : Chain BlockId}

/-- The open script changes at its end, where a block may become another one and more may hang on
it. What stands before that block stays as it is. -/
theorem Drafted.changeEnd (h : σ.Drafted outer d) (ho : σ.current = some o)
    {changed made : List BlockId} {asked : List Request} (hgrows : d.Grows e changed made asked)
    (ls : List (Layer BlockId)) (before : Chain BlockId)
    (hwhole : o.whole = (⟨ls, before.append (.cons last node slots t)⟩ : OpenScript _).whole)
    (hwhole' : o'.whole = (⟨ls, before.append (.cons last node' slots' t')⟩ : OpenScript _).whole)
    (hchanged : ∀ id ∈ changed, id ∈ (Chain.cons last node slots t).tags)
    (htags : (Chain.cons last node' slots' t').tags = (Chain.cons last node slots t).tags ++ made)
    (hasked : ∀ r, r ∈ (Chain.cons last node' slots' t').asked ↔
      r ∈ (Chain.cons last node slots t).asked ∨ r ∈ asked)
    (hstep : (Chain.cons last node slots t).tags.Nodup → ∀ s,
      (Chain.cons last node slots t).Held d.graph s →
        (Chain.cons last node' slots' t').Held e.graph s)
    (hY : e.nextY = d.nextY) (hcursor : OpenScript.Cursor e.script o'.chain.last o'.layers e.frames)
    (hnames : ∀ l ∈ o'.layers, (l.slots.names ++ l.branches.pending).Nodup) :
    ({ σ with current := some o' } : Sheet BlockId).Drafted outer e := by
  have hold : o.whole.tags = OpenScript.outerTags ls ++ before.tags ++
      (Chain.cons last node slots t).tags := hwhole ▸ OpenScript.tags_end ..
  have hnew : o'.whole.tags = OpenScript.outerTags ls ++ before.tags ++
      (Chain.cons last node' slots' t').tags := hwhole' ▸ OpenScript.tags_end ..
  have hnd := h.nodup
  rw [tags, scripts_current ho, List.flatMap_append, List.nodup_append, List.flatMap_singleton,
    hold, List.nodup_append] at hnd
  obtain ⟨-, ⟨-, hlast, hapart⟩, -⟩ := hnd
  refine h.advance ho hgrows (fun id hid ↦ ?_) ?_ (fun r ↦ ?_) (fun s hheld ↦ ?_) (fun hnil ↦ ?_) hY
    hcursor hnames
  · rw [hold]
    exact List.mem_append_right _ (hchanged id hid)
  · rw [hnew, hold, htags, List.append_assoc _ _ made]
  · rw [hwhole, hwhole', OpenScript.mem_asked_end, OpenScript.mem_asked_end, hasked, or_assoc]
  · rw [hwhole] at hheld
    rw [hwhole']
    refine OpenScript.tie ls before (hgrows.keeps fun x hx ↦ ⟨?_, fun hin ↦ ?_⟩) (hstep hlast) s
      hheld
    · exact h.mem_blocks ho (hold ▸ List.mem_append_left _ hx)
    · exact hapart x hx x (hchanged x hin) rfl
  · -- the whole script is not empty, since its last block is in it
    rw [hnil] at hnew
    have hmem : last ∈ ([] : List BlockId) := by
      rw [show ([] : List BlockId) = _ from hnew]
      exact List.mem_append_right _ List.mem_cons_self
    cases hmem

/-- A planted block is tied to the last block of the open script, or to the nesting block whose
branch it starts. -/
theorem Drafted.tie (h : σ.Drafted outer d) (ho : σ.current = some o) {id : BlockId}
    (hplant : d.Plants e t {}) (hid : id ∈ t.tags) {e' : Draft} (ls : List (Layer BlockId))
    (before : Chain BlockId)
    (hwhole : o.whole = (⟨ls, before.append (.cons last node slots .nil)⟩ : OpenScript _).whole)
    (hwhole' : o'.whole = (⟨ls, before.append (.cons last node slots' t')⟩ : OpenScript _).whole)
    (htags : (Chain.cons last node slots' t').tags =
      (Chain.cons last node slots .nil).tags ++ t.tags)
    (hasked : ∀ r, r ∈ (Chain.cons last node slots' t').asked ↔
      r ∈ (Chain.cons last node slots .nil).asked ∨ r ∈ t.asked)
    (hgrows : e.Grows e' [last, id] [] []) (hY : e'.nextY = e.nextY)
    (hstep : ((Chain.cons last node slots .nil).tags ++ t.tags).Nodup → ∀ s,
      (Chain.cons last node slots .nil).Held e.graph s →
        (Chain.cons last node slots' t').Held e'.graph s)
    (hcursor : OpenScript.Cursor e'.script o'.chain.last o'.layers e'.frames)
    (hnames : ∀ l ∈ o'.layers, (l.slots.names ++ l.branches.pending).Nodup) :
    ({ σ with current := some o' } : Sheet BlockId).Drafted outer e' := by
  have hnd := h.nodup_append ho hplant
  have hkeep := h.keeps_whole ho hplant
  rw [hwhole, OpenScript.tags_end] at hnd hkeep
  rw [List.append_assoc] at hnd
  have hall : d.Grows e' [last] t.tags t.asked := by
    have hfirst : d.Grows e [last] t.tags t.asked := hplant.grows.weaken (by simp)
    simpa using hfirst.trans hgrows (by simp [hid])
  exact h.changeEnd ho hall ls before hwhole hwhole' (by simp [Chain.tags]) htags hasked
    (fun _ s hheld ↦ hstep (List.nodup_append.1 hnd).2.1 s (hheld.keep hkeep.right))
    (hY.trans (Draft.desk_eq hplant.desk).2.2) hcursor hnames

end

/-! ### A planted block is appended -/

section

variable {id : BlockId} {node : Node} {slots : Slots BlockId}

/-- The block starts a branch of the innermost nesting block. -/
theorem Drafted.append_hang (h : σ.Drafted outer d) (ho : σ.current = some o)
    (hplant : d.Plants e (.cons id node slots .nil) {}) {l : Layer BlockId}
    {ls : List (Layer BlockId)} (hlayers : o.layers = l :: ls) (hchain : o.chain = .nil) :
    ({ σ with current := some (o.append (.cons id node slots .nil)) } : Sheet BlockId).Drafted outer
      (e.append id) := by
  have hcursor := h.cursor_plants ho hplant
  have hnames := h.names o ho
  obtain ⟨_, _⟩ := o
  obtain rfl := hlayers
  obtain rfl := hchain
  obtain ⟨f, fs, hframes, hfits, hcursor⟩ := hcursor
  obtain ⟨hinput, hlast⟩ := hfits.branches.active
  have hmoved :
      Frame.Fits (some id) { f with block := l.tag, branches := f.branches.extend id } l :=
    ⟨rfl, hfits.command, hfits.line, hfits.branches.extend id⟩
  have hnew := Branches.active_notMem (hnames l List.mem_cons_self)
  have hwhole' : (OpenScript.append ⟨l :: ls, .nil⟩ (.cons id node slots .nil)).whole =
      (⟨ls, l.before.append (.cons l.tag l.node (l.slots.branch l.branches.active.input
        (.cons id node slots .nil)) .nil)⟩ : OpenScript _).whole := rfl
  rw [Draft.append_hang hframes hlast, hinput, hfits.block]
  refine h.tie ho hplant List.mem_cons_self ls l.before rfl hwhole' ?_ (fun r ↦ ?_) ?_ rfl
    (fun hnd s hheld ↦ Draft.held_hang hheld hplant.held hnew hnd) ⟨_, fs, rfl, hmoved, hcursor⟩
    hnames
  · simp [Chain.tags]
  · simp [Chain.asked, or_assoc]
  · refine Draft.Grows.hang hplant.grows.fresh ?_ ?_ ?_ .. <;> rfl

variable {before : Chain BlockId} {last : BlockId} {node' : Node} {slots' : Slots BlockId}

/-- The block comes after the last one of a script without open nesting blocks. -/
theorem Drafted.append_script (h : σ.Drafted outer d) (ho : σ.current = some o)
    (hplant : d.Plants e (.cons id node slots .nil) {}) (hlayers : o.layers = [])
    (hchain : o.chain = before.append (.cons last node' slots' .nil)) :
    ({ σ with current := some (o.append (.cons id node slots .nil)) } : Sheet BlockId).Drafted outer
      (e.append id) := by
  have hcursor := h.cursor_plants ho hplant
  have hnames := h.names o ho
  obtain ⟨_, _⟩ := o
  obtain rfl := hlayers
  obtain rfl := hchain
  obtain ⟨hframes, hscript⟩ := hcursor
  rw [Chain.last_append_cons] at hscript
  rw [Draft.append_script hframes hscript]
  refine h.tie ho hplant List.mem_cons_self [] before rfl
    (congrArg OpenScript.whole (OpenScript.append_end ..)) ?_ (fun r ↦ ?_) ?_ rfl
    (fun hnd s hheld ↦ Draft.held_link hheld hplant.held hnd)
    ⟨hframes, (Chain.last_append_cons ..).symm⟩ hnames
  · simp [Chain.tags]
  · simp [Chain.asked, or_assoc]
  · refine Draft.Grows.link hplant.grows.fresh ?_ ?_ ?_ last id <;> rfl

/-- The block comes after the last one of the innermost nesting block. -/
theorem Drafted.append_link (h : σ.Drafted outer d) (ho : σ.current = some o)
    (hplant : d.Plants e (.cons id node slots .nil) {}) {l : Layer BlockId}
    {ls : List (Layer BlockId)} (hlayers : o.layers = l :: ls)
    (hchain : o.chain = before.append (.cons last node' slots' .nil)) :
    ({ σ with current := some (o.append (.cons id node slots .nil)) } : Sheet BlockId).Drafted outer
      (e.append id) := by
  have hcursor := h.cursor_plants ho hplant
  have hnames := h.names o ho
  obtain ⟨_, _⟩ := o
  obtain rfl := hlayers
  obtain rfl := hchain
  obtain ⟨f, fs, hframes, hfits, hcursor⟩ := hcursor
  rw [Chain.last_append_cons] at hfits
  have hmoved : Frame.Fits (some id) { f with branches := f.branches.extend id } l :=
    ⟨hfits.block, hfits.command, hfits.line, hfits.branches.extend id⟩
  rw [Draft.append_link hframes hfits.branches.active.2]
  refine h.tie ho hplant List.mem_cons_self (l :: ls) before rfl
    (congrArg OpenScript.whole (OpenScript.append_end ..)) ?_ (fun r ↦ ?_) ?_ rfl
    (fun hnd s hheld ↦ Draft.held_link hheld hplant.held hnd)
    ⟨_, fs, rfl, (Chain.last_append_cons ..).symm ▸ hmoved, hcursor⟩ hnames
  · simp [Chain.tags]
  · simp [Chain.asked, or_assoc]
  · refine Draft.Grows.link hplant.grows.fresh ?_ ?_ ?_ last id <;> rfl

/-- A planted block is appended to the open script. -/
theorem Drafted.append (h : σ.Drafted outer d) (ho : σ.current = some o)
    (hplant : d.Plants e (.cons id node slots .nil) {}) :
    ({ σ with current := some (o.append (.cons id node slots .nil)) } : Sheet BlockId).Drafted outer
      (e.append id) := by
  rcases o.chain.eq_nil_or_append with hchain | ⟨before, last, node', slots', hchain⟩
  · cases hlayers : o.layers with
    | nil =>
      -- an open script has a block
      have hnil : o.whole = .nil := by rw [OpenScript.whole, hlayers, hchain]; rfl
      exact absurd hnil (h.whole_ne_nil ho)
    | cons l ls => exact h.append_hang ho hplant hlayers hchain
  · cases hlayers : o.layers with
    | nil => exact h.append_script ho hplant hlayers hchain
    | cons l ls => exact h.append_link ho hplant hlayers hchain

end

/-- A planted block starts a script. -/
theorem Drafted.openScript (h : σ.Drafted outer d) {id : BlockId} {node : Node}
    {slots : Slots BlockId}
    (hplant : ({ d with nextY := d.nextY + scriptStep } : Draft).Plants e (.cons id node slots .nil)
      { place := some ⟨scriptX, d.nextY⟩ }) :
    (σ.start (.cons id node slots .nil)).Drafted outer (e.openScript id) := by
  obtain ⟨-, -, hY⟩ := Draft.desk_eq hplant.desk
  have hgrows : d.Grows e [] (Chain.cons id node slots .nil).tags
      (Chain.cons id node slots .nil).asked := hplant.grows.rebase rfl rfl
  have hopened : e.Grows (e.openScript id) [] [] [] :=
    Draft.Grows.of_eq hgrows.fresh rfl rfl rfl
  refine h.start ?_ hplant.held nofun hY rfl rfl
  simpa using hgrows.trans hopened (by simp)

/-- A nesting block is open on both sides or on none. -/
theorem Drafted.isNested_eq (h : σ.Drafted outer d) : σ.isNested = !d.frames.isEmpty := by
  have hcursor := h.cursor
  unfold isNested
  cases ho : σ.current with
  | none =>
    simp only [Cursor, ho] at hcursor
    rw [hcursor.2]
    rfl
  | some o =>
    simp only [Cursor, ho] at hcursor
    rw [hcursor.isEmpty]

/-- A script is open on both sides or on none. -/
theorem Drafted.script_isSome (h : σ.Drafted outer d) : d.script.isSome = σ.current.isSome := by
  have hcursor := h.cursor
  cases ho : σ.current with
  | none =>
    simp only [Cursor, ho] at hcursor
    rw [hcursor.1]
    rfl
  | some o =>
    simp only [Cursor, ho] at hcursor
    refine hcursor.isSome fun hls ↦ ?_
    have hne := h.whole_ne_nil ho
    simp only [OpenScript.whole, hls, List.foldl_nil] at hne
    rcases o.chain.eq_nil_or_append with hnil | ⟨before, last, node, slots, heq⟩
    · exact absurd hnil hne
    · rw [heq, Chain.last_append_cons]
      rfl

/-- Nothing that matters changes. -/
theorem Drafted.of_eq (h : σ.Drafted outer d) (hblocks : e.blocks = d.blocks)
    (hids : e.ids = d.ids) (hsymbols : e.symbols = d.symbols) (hscript : e.script = d.script)
    (hframes : e.frames = d.frames) (hY : e.nextY = d.nextY) : σ.Drafted outer e where
  fresh := (Draft.Grows.of_eq h.fresh hblocks hids hsymbols).fresh
  keys := by rw [hblocks]; exact h.keys
  nodup := h.nodup
  held := by rw [Draft.graph, hblocks, hsymbols]; exact h.held
  filled := h.filled
  nextY := by rw [hY]; exact h.nextY
  cursor := by rw [hscript, hframes]; exact h.cursor
  names := h.names
  answers := by rw [hsymbols]; exact h.answers
  inherited := by rw [hsymbols]; exact h.inherited

/-- The innermost nesting block is closed. -/
theorem Drafted.pop (h : σ.Drafted outer d) {l : Layer BlockId} {ls : List (Layer BlockId)}
    {c : Chain BlockId} (ho : σ.current = some ⟨l :: ls, c⟩) {fs : List Frame}
    (hcursor : OpenScript.Cursor d.script (some l.tag) ls fs) :
    ({ σ with current := some ⟨ls, l.fill c⟩ } : Sheet BlockId).Drafted outer
      { d with frames := fs } := by
  refine h.advance ho (Draft.Grows.of_eq h.fresh rfl rfl rfl)
    (by simp) (by simp [OpenScript.whole_cons])
    (by simp [OpenScript.whole_cons]) (fun s hheld ↦ hheld) ?_ rfl ?_ fun l hl ↦ ?_
  · rw [← OpenScript.whole_cons]
    exact h.whole_ne_nil ho
  · simp only [Layer.fill, Chain.last_append_cons]
    exact hcursor
  · exact h.names _ ho l (List.mem_cons_of_mem _ hl)

/-- A script without open nesting blocks is closed. Nothing becomes of it, but the cursor leaves
it. -/
theorem Drafted.close (h : σ.Drafted outer d) {c : Chain BlockId} (ho : σ.current = some ⟨[], c⟩)
    (hframes : d.frames = []) :
    ({ σ with closed := σ.closed ++ [c], current := none } : Sheet BlockId).Drafted outer
      { d with script := none } := by
  have hsame : ({ σ with closed := σ.closed ++ [c], current := none } : Sheet BlockId).scripts =
      σ.scripts := by
    rw [scripts_current ho]
    simp [scripts, OpenScript.whole]
  refine ⟨h.fresh, ?_, ?_, ?_, ?_, ?_, ⟨rfl, hframes⟩, nofun, ?_, h.inherited⟩
  · simpa only [tags, hsame] using h.keys
  · simpa only [tags, hsame] using h.nodup
  · rw [hsame]
    exact h.held
  · simpa only [hsame] using h.filled
  · simpa only [hsame] using h.nextY
  · simpa only [asked, hsame] using h.answers

/-- The appended block is opened as a nesting block. -/
theorem Drafted.nest {id : BlockId} {node : Node} {slots : Slots BlockId}
    (h : ({ σ with current := some (o.append (.cons id node slots .nil)) } :
      Sheet BlockId).Drafted outer d) (command : Command) (line : Nat)
    (hnames : (slots.names ++ (Branches.ofCommand command).pending).Nodup) :
    ({ σ with current := some (o.nest id node slots command line) } : Sheet BlockId).Drafted outer
      (d.openFrame ⟨id, command.name, line, Branches.ofCommand command⟩) := by
  have hcursor := h.cursor
  simp only [Cursor, OpenScript.append, Chain.last_append_cons] at hcursor
  refine h.advance rfl (Draft.Grows.of_eq h.fresh rfl rfl rfl) (by simp) (by simp)
    (by simp) (fun s hheld ↦ hheld) (by rw [OpenScript.whole_nest]; exact h.whole_ne_nil rfl) rfl
    ⟨_, _, rfl, ⟨rfl, rfl, rfl, Branches.fits_ofCommand command⟩, hcursor⟩ fun l hl ↦ ?_
  rcases List.mem_cons.1 hl with rfl | hl
  · exact hnames
  · exact h.names _ rfl l hl

/-- The appended block is given the procedure it is about. -/
theorem Drafted.setProcedure {id : BlockId} {node : Node} {slots : Slots BlockId}
    (h : ({ σ with current := some (o.append (.cons id node slots .nil)) } :
      Sheet BlockId).Drafted outer d) (hproc : node.procedure = none) (name : String) :
    ({ σ with current := some (o.append (.cons id { node with procedure := some name } slots
      .nil)) } : Sheet BlockId).Drafted outer
      ((d.intern .procedures name "").2.setProcedure id (d.intern .procedures name "").1.name) := by
  have hintern := Draft.Grows.intern h.fresh .procedures name ""
  have hknown : (d.intern .procedures name "").2.symbols.lookup? .procedures name =
      some (d.intern .procedures name "").1 := d.symbols.lookup?_intern_self ..
  have hcursor := h.cursor
  have hmem : ∀ x ∈ (Chain.cons id node slots .nil).tags, (d.blocks.find? x).isSome := fun x hx ↦ by
    refine h.mem_blocks rfl ?_
    rw [OpenScript.append, OpenScript.tags_end]
    exact List.mem_append_right _ hx
  have hset : d.Grows ((d.intern .procedures name "").2.setProcedure id
      (d.intern .procedures name "").1.name) [id] [] [(.procedures, name)] := by
    have hfirst : d.Grows (d.intern .procedures name "").2 [id] [] [(.procedures, name)] :=
      hintern.weaken (by simp)
    exact hfirst.trans (Draft.Grows.update hintern.fresh id _) (by simp)
  refine h.changeEnd rfl hset o.layers o.chain rfl rfl (by simp [Chain.tags])
    (by simp [Chain.tags]) (fun r ↦ ?_) (fun hnd s hheld ↦ ?_) rfl ?_ fun l hl ↦ h.names _ rfl l hl
  · simp only [Chain.asked, Node.asked, hproc, List.mem_append, Option.toList_none,
      Option.toList_some, List.map_nil, List.map_cons]
    tauto
  · have hkept := hheld.keep (hintern.keeps fun x hx ↦ ⟨hmem x hx, by simp⟩)
    refine hkept.modify hnd _ (fun b hb ↦ ?_) (fun _ ↦ rfl)
      fun b _ hnames hslots ↦ ⟨hnames, hslots⟩
    refine { hb with procedure := ?_ }
    simp only [Node.procedure?, Draft.graph, hknown, Option.map_some]
  · simp only [Cursor, OpenScript.append, Chain.last_append_cons] at hcursor ⊢
    exact hcursor

/-- The innermost nesting block goes on to its second branch. -/
theorem Drafted.switch {l : Layer BlockId} {ls : List (Layer BlockId)} {c : Chain BlockId}
    (h : σ.Drafted outer d) (ho : σ.current = some ⟨l :: ls, c⟩) {node : Node} {branches : Branches}
    (hasked : node.asked = l.node.asked) (hgrows : d.Grows e [l.tag] [] []) (hY : e.nextY = d.nextY)
    (hpending : l.branches.pending = l.branches.active.input :: branches.pending)
    (hstep : (Chain.cons l.tag l.node (l.slots.branch l.branches.active.input c) .nil).tags.Nodup →
      ∀ s,
        (Chain.cons l.tag l.node (l.slots.branch l.branches.active.input c) .nil).Held d.graph s →
        (Chain.cons l.tag node (l.slots.branch l.branches.active.input c) .nil).Held e.graph s)
    {f : Frame} {fs : List Frame} (hframes : e.frames = f :: fs)
    (hfits : f.Fits none { l with node, branches })
    (hcursor : OpenScript.Cursor e.script (some l.tag) ls fs) :
    ({ σ with current := some ⟨{ l with
        node
        slots := l.slots.branch l.branches.active.input c
        branches } :: ls, .nil⟩ } : Sheet BlockId).Drafted outer e := by
  refine h.changeEnd ho hgrows ls l.before rfl rfl (by simp [Chain.tags])
    (by simp [Chain.tags]) (by simp [Chain.asked, hasked]) hstep hY
    ⟨f, fs, hframes, ⟨hfits.block, hfits.command, hfits.line, hfits.branches⟩, hcursor⟩
    fun l' hl' ↦ ?_
  -- the branches that are left have names of their own, also after the first one was filled
  have hnames := h.names _ ho
  rcases List.mem_cons.1 hl' with rfl | hl'
  · have hfirst := hnames l List.mem_cons_self
    rw [hpending] at hfirst
    cases c with
    | nil => exact hfirst.sublist (List.Sublist.append_left (List.sublist_cons_self _ _) _)
    | cons => simpa [Slots.branch_cons] using hfirst
  · exact hnames l' (List.mem_cons_of_mem _ hl')

/-- A name is declared. -/
theorem Drafted.declare (h : σ.Drafted outer d) (kind : SymbolKind) (name initial : String) :
    ({ σ with declared := σ.declared ++ [(kind, name)] } : Sheet BlockId).Drafted outer
      (d.intern kind name initial).2 := by
  have hintern := Draft.Grows.intern h.fresh kind name initial
  refine ⟨hintern.fresh, h.keys, h.nodup, fun i c hi ↦ ?_, h.filled, h.nextY, h.cursor, h.names, ?_,
    hintern.inherited.trans h.inherited⟩
  · refine (h.held i c hi).keep (hintern.keeps fun id hid ↦ ⟨(h.keys id).2 ?_, by simp⟩)
    exact List.mem_flatMap.2 ⟨c, List.mem_of_getElem? hi, hid⟩
  · refine (hintern.answers _ h.answers).congr fun r ↦ ?_
    simp only [asked, scripts, List.mem_append]
    tauto

end Sheet

end BlockScript

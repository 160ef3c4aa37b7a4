import Mathlib.Data.List.Count
import BlockScript.Catalog.Builtin
import BlockScript.Listing
import BlockScript.Proofs.Dictionary

/-!
# The tour of a listing

A listing is written in one walk over the graph of a target, whatever that graph looks like: chains
may run in circles, blocks may be shared by several slots, and identifiers may lead nowhere. This
file says which way the walk takes. A *tour* (`Listing.Tour`) is a depth-first walk with a record of
the blocks it has entered and a list of errands that are still to be done, each of them a value or a
chain to be written. It has no bound, so a tour that exists is one that ends.

`Listing.Tours` says of a piece of writing that it runs such errands, and that the bounds in it are
never felt: two writers whose bounds suffice do the same. One lemma for each part of the writer
leads to `Listing.expression_tours` and `Listing.chain_tours`, and from there to the equations of
the writer without any bound, which have no other solution (`Listing.IsWriter.unique`).
-/

namespace BlockScript.Listing

/-! ### What a block leads to -/

/-- Something that a walk has to write. -/
inductive Errand where
  /-- The expression of a block. -/
  | value (id : BlockId)
  /-- The chain that starts with a block. -/
  | chain (id : BlockId)
deriving DecidableEq, Repr

/-- The block that an errand leads to. -/
def Errand.id : Errand → BlockId
  | value id => id
  | chain id => id

/-- The block whose expression stands in an input. A menu shows a block only above its choice, and
an input without a position is not written. -/
def inputReference? (block : Block) (spec : InputSpec) : Option BlockId :=
  spec.source.position?.bind fun _ ↦
    (block.inputs.find? spec.name).bind fun slot ↦
      match spec.kind, slot with
      | .menu, .covered id _ => some id
      | .menu, _ => none
      | _, slot => slot.connected?

/-- The blocks whose expressions stand in the arguments of a command. -/
def argumentReferences (command : Command) (block : Block) : List BlockId :=
  command.inputs.filterMap (inputReference? block)

/-- The blocks in some inputs. -/
def connections (block : Block) (names : List String) : List BlockId :=
  names.filterMap fun name ↦ (block.inputs.find? name).bind Slot.connected?

/-- The connections of a block at some names, one after the other. -/
theorem connections_cons (block : Block) (name : String) (names : List String) :
    connections block (name :: names) =
      ((block.inputs.find? name).bind Slot.connected?).toList ++ connections block names := by
  cases h : (block.inputs.find? name).bind Slot.connected? <;> simp [connections, h]

/-- The inputs of a block that is written in a way of its own, and not as a call of the catalog. -/
def ownOperands? (opcode : String) : Option (List String) :=
  if opcode == Opcode.greater || opcode == Opcode.less || opcode == Opcode.equals ||
      opcode == Opcode.and || opcode == Opcode.or then some ["OPERAND1", "OPERAND2"]
  else if opcode == Opcode.not then some ["OPERAND"]
  else if opcode == Opcode.argument || opcode == Opcode.booleanArgument then some []
  else none

/-- The blocks that the expression of a block leads to. -/
def expressionReferences (catalog : Catalog) (block : Block) : List BlockId :=
  match ownOperands? block.opcode with
  | some names => connections block names
  | none =>
    match catalog.expressionFor? block.opcode with
    | some command => argumentReferences command block
    | none => []

/-- The command that writes a block as a line, unless the line has a form of its own. -/
def lineCommand? (catalog : Catalog) (block : Block) : Option Command :=
  if block.opcode == Opcode.definition || block.opcode == Opcode.call then none
  else headerCommand? catalog block

/-- The sub-chains that a line opens. -/
def branchReferences (catalog : Catalog) (command : Command) (block : Block) : List BlockId :=
  if command.kind == .nesting then connections block (stackNames catalog command block) else []

/-- The errands of a line and of the sub-chains below it. -/
def lineErrands (catalog : Catalog) (block : Block) : List Errand :=
  match lineCommand? catalog block with
  | some command => (argumentReferences command block).map .value ++
      (branchReferences catalog command block).map .chain
  | none => []

/-- What a block leads to once it is entered: for a value, the values in it; for a chain, the values
in its line, its sub-chains and then the rest of the chain. -/
def Errand.expand (catalog : Catalog) : Errand → Block → List Errand
  | value _, block => (expressionReferences catalog block).map value
  | chain _, block => lineErrands catalog block ++ block.next.toList.map chain

/-- What is remarked on a block that the catalog has no words for. -/
def Errand.remarks (catalog : Catalog) : Errand → Block → List Remark
  | value _, block =>
    if (ownOperands? block.opcode).isNone && (catalog.expressionFor? block.opcode).isNone then
      [.unknownReporter block.opcode]
    else []
  | chain _, block =>
    if block.opcode == Opcode.definition || block.opcode == Opcode.call then []
    else if (headerCommand? catalog block).isNone then [.unsupportedOpcode block.opcode]
    else []

/-! ### Tours -/

/-- A stop of a tour: an errand and what happened at the door of its block. -/
structure Stop where
  /-- What was to be written. -/
  errand : Errand
  /-- What happened. -/
  visit : Visit
deriving DecidableEq, Repr

namespace Stop

/-- The block that is written at a stop. -/
def written? (stop : Stop) : Option BlockId :=
  match stop.visit with
  | .first _ => some stop.errand.id
  | _ => none

/-- What is remarked at a stop: nothing where there is no block, the circle where the block was
written before, and otherwise what the catalog has no words for. -/
def remarks (catalog : Catalog) (stop : Stop) : List Remark :=
  match stop.visit with
  | .missing => []
  | .again => [.cyclicChain stop.errand.id]
  | .first block => stop.errand.remarks catalog block

/-- Whether a stop is at a block that was written before. -/
def isReturnTo (id : BlockId) (stop : Stop) : Bool := stop.errand.id == id && stop.visit == .again

/-- A stop remarks on the circle through a block exactly if it comes back to that block. -/
theorem count_remarks (catalog : Catalog) (id : BlockId) (stop : Stop) :
    (stop.remarks catalog).count (.cyclicChain id) = if stop.isReturnTo id then 1 else 0 := by
  obtain ⟨errand, visit⟩ := stop
  cases visit with
  | missing => simp [remarks, isReturnTo]
  | again => simp [remarks, isReturnTo, List.count_singleton]
  | first block =>
    have hother : Remark.cyclicChain id ∉ errand.remarks catalog block := by
      cases errand <;> simp only [Errand.remarks] <;> split_ifs <;> simp
    simp [remarks, isReturnTo, List.count_eq_zero.2 hother]

end Stop

/-- The blocks written on a tour, in order. -/
def written (stops : List Stop) : List BlockId := stops.filterMap Stop.written?

/-- No stops have written nothing. -/
@[simp]
theorem written_nil : written [] = [] := rfl

/-- The blocks written at the first stop come first. -/
@[simp]
theorem written_cons (stop : Stop) (stops : List Stop) :
    written (stop :: stops) = stop.written?.toList ++ written stops := by
  cases h : stop.written? <;> simp [written, h]

/-- The blocks written along stops put together are those of both. -/
@[simp]
theorem written_append (stops others : List Stop) :
    written (stops ++ others) = written stops ++ written others :=
  List.filterMap_append

/-- A depth-first walk through the errands, from a record of the blocks that were written before. -/
inductive Tour (catalog : Catalog) (target : Target) :
    List BlockId → List Errand → List Stop → Prop where
  /-- Nothing is left to do. -/
  | done (seen : List BlockId) : Tour catalog target seen [] []
  /-- There is no such block. -/
  | missing {seen : List BlockId} {errand : Errand} {rest : List Errand} {stops : List Stop}
    (hfind : target.blocks.find? errand.id = none) (htour : Tour catalog target seen rest stops) :
    Tour catalog target seen (errand :: rest) (⟨errand, .missing⟩ :: stops)
  /-- The block was written before. -/
  | again {seen : List BlockId} {errand : Errand} {rest : List Errand} {stops : List Stop}
    {block : Block} (hfind : target.blocks.find? errand.id = some block) (hseen : errand.id ∈ seen)
    (htour : Tour catalog target seen rest stops) :
    Tour catalog target seen (errand :: rest) (⟨errand, .again⟩ :: stops)
  /-- The block is written, and what it leads to comes before everything else. -/
  | first {seen : List BlockId} {errand : Errand} {rest : List Errand} {stops : List Stop}
    {block : Block} (hfind : target.blocks.find? errand.id = some block) (hseen : errand.id ∉ seen)
    (htour : Tour catalog target (seen ++ [errand.id]) (errand.expand catalog block ++ rest)
      stops) :
    Tour catalog target seen (errand :: rest) (⟨errand, .first block⟩ :: stops)

namespace Tour

variable {catalog : Catalog} {target : Target} {seen : List BlockId}
  {errands more : List Errand} {stops others : List Stop}

/-- Errands can be done one after the other. -/
theorem append (h : Tour catalog target seen errands stops)
    (h' : Tour catalog target (seen ++ written stops) more others) :
    Tour catalog target seen (errands ++ more) (stops ++ others) := by
  induction h with
  | done seen => simpa using h'
  | missing hfind _ ih => exact .missing hfind (ih h')
  | again hfind hseen _ ih => exact .again hfind hseen (ih h')
  | first hfind hseen _ ih =>
    have hrest := ih (by simpa [Stop.written?] using h')
    rw [List.append_assoc] at hrest
    exact .first hfind hseen hrest

/-- **No block is written twice**, nor one that was written before. -/
theorem nodup_written (h : Tour catalog target seen errands stops) (hseen : seen.Nodup) :
    (seen ++ written stops).Nodup := by
  induction h with
  | done seen => simpa using hseen
  | missing _ _ ih => exact ih hseen
  | again _ _ _ ih => exact ih hseen
  | first _ hnew _ ih =>
    have hgrown := ih (List.nodup_append.2 ⟨hseen, List.nodup_singleton _, fun a ha b hb heq ↦
      hnew (List.mem_singleton.1 hb ▸ heq ▸ ha)⟩)
    simpa [Stop.written?] using hgrown

end Tour

/-! ### Walks with room -/

/-- How many blocks a walk has not been at. -/
def Walk.room (target : Target) (w : Walk) : Nat :=
  (target.blocks.keys.filter fun id ↦ !w.visited.contains id).length

/-- A walk after a few stops. -/
def Walk.after (catalog : Catalog) (w : Walk) (stops : List Stop) : Walk where
  visited := w.visited ++ written stops
  remarks := w.remarks ++ stops.flatMap (Stop.remarks catalog)

/-- A walk with further remarks. -/
def Walk.say (w : Walk) (said : List Remark) : Walk := { w with remarks := w.remarks ++ said }

section

variable {catalog : Catalog} {target : Target} {w : Walk}

/-- A walk that has visited more has no more room left. -/
theorem Walk.room_visited_le (w : Walk) (more : List BlockId) (remarks : List Remark) :
    Walk.room target ⟨w.visited ++ more, remarks⟩ ≤ w.room target := by
  refine (List.monotone_filter_right _ fun id hid ↦ ?_).length_le
  simp only [List.contains_eq_mem, Bool.not_eq_true', decide_eq_false_iff_not,
    List.mem_append] at hid ⊢
  exact fun h ↦ hid (.inl h)

/-- Entering a block takes up room. -/
theorem Walk.room_enter_lt {id : BlockId} {block : Block}
    (hfind : target.blocks.find? id = some block) (hnew : id ∉ w.visited) (remarks : List Remark) :
    Walk.room target ⟨w.visited ++ [id], remarks⟩ < w.room target := by
  have hmem : id ∈ target.blocks.keys := Dict.mem_keys_iff.2 ⟨block, hfind⟩
  have hsub : (target.blocks.keys.filter fun other ↦ !(w.visited ++ [id]).contains other).Sublist
      ((target.blocks.keys.filter fun other ↦ !w.visited.contains other).filter (· != id)) := by
    rw [List.filter_filter]
    refine List.monotone_filter_right _ fun other hother ↦ ?_
    simp at hother ⊢
    tauto
  refine Nat.lt_of_le_of_lt hsub.length_le ?_
  refine List.length_filter_lt_length_iff_exists.2 ⟨id, ?_, by simp⟩
  exact List.mem_filter.2 ⟨hmem, by simpa using hnew⟩

/-- At the door of a missing block nothing happens. -/
theorem run_enter_missing {id : BlockId} (hfind : target.blocks.find? id = none) :
    (enter target id).run w = (.missing, w) := by
  simp only [enter, hfind]
  rfl

/-- At the door of a block that was visited the return is remarked on. -/
theorem run_enter_again {id : BlockId} {block : Block}
    (hfind : target.blocks.find? id = some block) (hseen : id ∈ w.visited) :
    (enter target id).run w = (.again, w.say [.cyclicChain id]) := by
  simp only [enter, hfind, StateT.run_bind, StateT.run_get]
  show StateT.run (if w.visited.contains id = true then _ else _) w = _
  rw [if_pos (by simpa using hseen)]
  rfl

/-- At the door of a new block the visit is recorded. -/
theorem run_enter_first {id : BlockId} {block : Block}
    (hfind : target.blocks.find? id = some block) (hnew : id ∉ w.visited) :
    (enter target id).run w = (.first block, ⟨w.visited ++ [id], w.remarks⟩) := by
  simp only [enter, hfind, StateT.run_bind, StateT.run_get]
  show StateT.run (if w.visited.contains id = true then _ else _) w = _
  rw [if_neg (by simpa using hnew)]
  rfl

end

/-! ### Writing as a tour -/

/-- The work makes some remarks and then runs errands, as long as the walk has no more than `n`
blocks left to enter, and other work does the same on these walks. -/
def Tours {β : Type} (catalog : Catalog) (target : Target) (n : Nat) (said : List Remark)
    (errands : List Errand) (work other : Writer β) : Prop :=
  ∀ w : Walk, w.room target ≤ n → other.run w = work.run w ∧
    ∃ stops, Tour catalog target w.visited errands stops ∧
      (work.run w).2 = (w.say said).after catalog stops

namespace Tours

variable {β γ : Type} {catalog : Catalog} {target : Target} {n k : Nat} {said : List Remark}
  {errands more : List Errand} {work other : Writer β}

/-- A plain result runs no errands. -/
theorem pure (result : β) : Tours catalog target n [] [] (Pure.pure result) (Pure.pure result) :=
  fun w _ ↦ ⟨rfl, [], .done _, by
    show w = _
    simp [Walk.after, Walk.say]⟩

/-- Work after work runs the errands of both in this order. -/
theorem bind {next next' : β → Writer γ} (h : Tours catalog target n said errands work other)
    (hnext : ∀ a, Tours catalog target n [] more (next a) (next' a)) :
    Tours catalog target n said (errands ++ more) (work >>= next) (other >>= next') := by
  intro w hw
  obtain ⟨heq, stops, htour, hafter⟩ := h w hw
  have hroom : ((w.say said).after catalog stops).room target ≤ n :=
    Nat.le_trans (Walk.room_visited_le w _ _) hw
  obtain ⟨heq', others, htour', hafter'⟩ := hnext (work.run w).1 _ hroom
  refine ⟨?_, stops ++ others, htour.append htour', ?_⟩
  · rw [StateT.run_bind, StateT.run_bind, heq]
    show (next' (work.run w).1).run (work.run w).2 = (next (work.run w).1).run (work.run w).2
    rw [hafter]
    exact heq'
  · rw [StateT.run_bind]
    show ((next (work.run w).1).run (work.run w).2).2 = _
    rw [hafter, hafter']
    simp [Walk.after, Walk.say, List.append_assoc]

/-- What comes after the errands runs none of its own. -/
theorem andThen {next next' : β → Writer γ} (h : Tours catalog target n said errands work other)
    (hnext : ∀ a, Tours catalog target n [] [] (next a) (next' a)) :
    Tours catalog target n said errands (work >>= next) (other >>= next') := by
  simpa using h.bind hnext

/-- A fold runs the errands of its steps in turn. -/
theorem foldlM {step step' : β → γ → Writer β} {leads : γ → List Errand}
    (hstep : ∀ item a, Tours catalog target n [] (leads item) (step a item) (step' a item))
    (items : List γ) (a : β) :
    Tours catalog target n [] (items.flatMap leads) (items.foldlM step a)
      (items.foldlM step' a) := by
  induction items generalizing a with
  | nil => exact .pure a
  | cons item items ih =>
    rw [List.foldlM_cons, List.foldlM_cons, List.flatMap_cons]
    exact (hstep item a).bind ih

/-- A remark runs no errands. -/
theorem remark (r : Remark) : Tours catalog target n [r] [] (remark r) (Listing.remark r) :=
  fun w _ ↦ ⟨rfl, [], .done _, by
    show ({ w with remarks := w.remarks ++ [r] } : Walk) = _
    simp [Walk.after, Walk.say]⟩

/-- What happens at the door of a block: nothing is entered where there is no room left. -/
theorem enter (errand : Errand) {go go' : Visit → Writer β}
    (hmissing : Tours catalog target n [] [] (go .missing) (go' .missing))
    (hagain : Tours catalog target n [] [] (go .again) (go' .again))
    (hfirst : ∀ k, n = k + 1 → ∀ block, Tours catalog target k (errand.remarks catalog block)
      (errand.expand catalog block) (go (.first block)) (go' (.first block))) :
    Tours catalog target n [] [errand] (enter target errand.id >>= go)
      (Listing.enter target errand.id >>= go') := by
  intro w hw
  rw [StateT.run_bind, StateT.run_bind]
  cases hfind : target.blocks.find? errand.id with
  | none =>
    -- a missing block is one stop, after which nothing is left to do
    rw [run_enter_missing hfind]
    obtain ⟨heq, stops, htour, hafter⟩ := hmissing w hw
    cases htour
    refine ⟨heq, [⟨errand, .missing⟩], .missing hfind (.done _), ?_⟩
    show ((go .missing).run w).2 = _
    rw [hafter]
    simp [Walk.after, Walk.say, Stop.written?, Stop.remarks]
  | some block =>
    by_cases hseen : errand.id ∈ w.visited
    · -- a return is one stop with its remark
      rw [run_enter_again hfind hseen]
      obtain ⟨heq, stops, htour, hafter⟩ := hagain (w.say [.cyclicChain errand.id]) hw
      cases htour
      refine ⟨heq, [⟨errand, .again⟩], .again hfind hseen (.done _), ?_⟩
      show ((go .again).run _).2 = _
      rw [hafter]
      simp [Walk.after, Walk.say, Stop.written?, Stop.remarks]
    · -- the block takes up room, so that a larger bound is never asked for
      rw [run_enter_first hfind hseen]
      have hlt := Walk.room_enter_lt hfind hseen w.remarks
      obtain ⟨k, rfl⟩ : ∃ k, n = k + 1 := ⟨n - 1, by omega⟩
      obtain ⟨heq, stops, htour, hafter⟩ :=
        hfirst k rfl block ⟨w.visited ++ [errand.id], w.remarks⟩ (by omega)
      refine ⟨heq, ⟨errand, .first block⟩ :: stops, .first hfind hseen (by simpa using htour), ?_⟩
      show ((go (.first block)).run _).2 = _
      rw [hafter]
      simp [Walk.after, Walk.say, Stop.written?, Stop.remarks]

end Tours

/-! ### Expressions -/

section

variable {catalog : Catalog} {target : Target} {n : Nat} {speak speak' : Speak} {block : Block}

/-- Whoever writes an inner expression runs that errand and no other. -/
def SpeakTours (catalog : Catalog) (target : Target) (n : Nat) (speak speak' : Speak) : Prop :=
  ∀ id, Tours catalog target n [] [.value id] (speak id) (speak' id)

theorem computed_tours (h : SpeakTours catalog target n speak speak') (slot : Option Slot) :
    Tours catalog target n [] ((slot.bind Slot.connected?).toList.map .value)
      (computed speak slot) (computed speak' slot) := by
  unfold computed
  cases slot.bind Slot.connected? with
  | none => exact .pure ""
  | some id => exact h id

theorem operand_tours (h : SpeakTours catalog target n speak speak') (slot : Option Slot) :
    Tours catalog target n [] ((slot.bind Slot.connected?).toList.map .value)
      (operand speak slot) (operand speak' slot) := by
  unfold operand
  refine (computed_tours h slot).andThen fun text ↦ ?_
  split
  · exact .pure text
  · cases slot.bind Slot.literal? <;> exact .pure _

theorem truthOperand_tours (h : SpeakTours catalog target n speak speak') (slot : Option Slot) :
    Tours catalog target n [] ((slot.bind Slot.connected?).toList.map .value)
      (truthOperand speak slot) (truthOperand speak' slot) :=
  (computed_tours h slot).andThen fun _ ↦ .pure _

theorem comparison_tours (h : SpeakTours catalog target n speak speak') (symbol : String) :
    Tours catalog target n [] ((connections block ["OPERAND1", "OPERAND2"]).map .value)
      (comparison speak symbol block) (comparison speak' symbol block) := by
  simp only [connections_cons, List.map_append]
  exact (operand_tours h _).bind fun _ ↦ (operand_tours h _).bind fun _ ↦ .pure _

theorem connective_tours (h : SpeakTours catalog target n speak speak') (word : String) :
    Tours catalog target n [] ((connections block ["OPERAND1", "OPERAND2"]).map .value)
      (connective speak word block) (connective speak' word block) := by
  simp only [connections_cons, List.map_append]
  exact (truthOperand_tours h _).bind fun _ ↦ (truthOperand_tours h _).bind fun _ ↦ .pure _

theorem menuText_tours (h : SpeakTours catalog target n speak speak') (slot : Option Slot)
    (fallback : String) :
    Tours catalog target n []
      ((match slot with
        | some (.covered id _) => some id
        | _ => none).toList.map .value)
      (menuText target speak slot fallback) (menuText target speak' slot fallback) := by
  have hrest : ∀ (slot : Slot) (text : String), Tours catalog target n [] []
      (if !text.isEmpty then Pure.pure (marked text) else Pure.pure (Token.format
        (Text.orElse (menuChoice target slot) (constant (some slot) fallback))) : Writer String)
      (if !text.isEmpty then Pure.pure (marked text) else Pure.pure (Token.format
        (Text.orElse (menuChoice target slot) (constant (some slot) fallback))) : Writer String) :=
      by
    intro slot text
    split <;> exact .pure _
  unfold menuText
  cases slot with
  | none => exact .pure _
  | some slot =>
    cases slot with
    | covered id _ => exact (h id).andThen (hrest _)
    | literal value => exact (Tours.pure "").andThen (hrest _)
    | shadow id => exact (Tours.pure "").andThen (hrest _)
    | block id => exact (Tours.pure "").andThen (hrest _)

theorem inputText_tours (h : SpeakTours catalog target n speak speak') (site : Site)
    {spec : InputSpec} {position : Nat} (hposition : spec.source.position? = some position) :
    Tours catalog target n [] ((inputReference? block spec).toList.map .value)
      (inputText target speak site block spec) (inputText target speak' site block spec) := by
  have hcomputed := computed_tours h (block.inputs.find? spec.name)
  unfold inputText inputReference?
  rw [hposition, Option.bind_some]
  generalize block.inputs.find? spec.name = slot at hcomputed ⊢
  cases hkind : spec.kind with
  | menu =>
    have hmenu := menuText_tours h slot spec.defaultText
    cases slot with
    | none => exact hmenu
    | some slot => cases slot <;> exact hmenu
  | boolean => cases slot <;> exact hcomputed.andThen fun _ ↦ .pure _
  | text | number | integer | angle | color =>
    cases slot <;> exact hcomputed.andThen fun _ ↦ by split_ifs <;> exact .pure _

theorem arguments_tours (h : SpeakTours catalog target n speak speak') (site : Site)
    (command : Command) :
    Tours catalog target n [] ((argumentReferences command block).map .value)
      (arguments target speak site command block)
      (arguments target speak' site command block) := by
  have herrands : (argumentReferences command block).map Errand.value =
      command.inputs.flatMap fun spec ↦ (inputReference? block spec).toList.map .value := by
    rw [argumentReferences, List.filterMap_eq_flatMap_toList, List.map_flatMap]
  rw [herrands]
  refine (Tours.foldlM (fun spec args ↦ ?_) _ _).andThen fun _ ↦ .pure _
  cases hposition : spec.source.position? with
  | none =>
    have hnone : inputReference? block spec = none := by
      rw [inputReference?, hposition, Option.bind_none]
    rw [hnone]
    exact .pure args
  | some i => exact (inputText_tours h site hposition).andThen fun _ ↦ .pure _

/-- A block that the catalog has a call for is written as that call, and otherwise remarked on. -/
theorem callText_tours (h : SpeakTours catalog target n speak speak') {id : BlockId}
    (hown : ownOperands? block.opcode = none) :
    Tours catalog target n ((Errand.value id).remarks catalog block)
      ((Errand.value id).expand catalog block)
      (callText catalog target speak block) (callText catalog target speak' block) := by
  unfold callText
  simp only [Errand.remarks, Errand.expand, expressionReferences, hown]
  cases catalog.expressionFor? block.opcode with
  | none => exact (Tours.remark _).bind fun _ ↦ .pure _
  | some command => exact (arguments_tours h .call command).andThen fun _ ↦ .pure _

theorem blockExpression_tours (h : SpeakTours catalog target n speak speak') (id : BlockId)
    (block : Block) :
    Tours catalog target n ((Errand.value id).remarks catalog block)
      ((Errand.value id).expand catalog block)
      (blockExpression catalog target speak block)
      (blockExpression catalog target speak' block) := by
  -- a block with operands of its own says nothing and leads to these operands
  have hown : ∀ names, ownOperands? block.opcode = some names →
      (Errand.value id).remarks catalog block = [] ∧
      (Errand.value id).expand catalog block = (connections block names).map .value := by
    intro names hnames
    simp [Errand.remarks, Errand.expand, expressionReferences, hnames]
  unfold blockExpression
  split_ifs with hgreater hless hequals hand hor hnot hargument hboolean
  · obtain ⟨hsaid, hleads⟩ := hown ["OPERAND1", "OPERAND2"] (by simp [ownOperands?, hgreater])
    rw [hsaid, hleads]
    exact comparison_tours h _
  · obtain ⟨hsaid, hleads⟩ := hown ["OPERAND1", "OPERAND2"] (by simp [ownOperands?, hless])
    rw [hsaid, hleads]
    exact comparison_tours h _
  · obtain ⟨hsaid, hleads⟩ := hown ["OPERAND1", "OPERAND2"] (by simp [ownOperands?, hequals])
    rw [hsaid, hleads]
    exact comparison_tours h _
  · obtain ⟨hsaid, hleads⟩ := hown ["OPERAND1", "OPERAND2"] (by simp [ownOperands?, hand])
    rw [hsaid, hleads]
    exact connective_tours h _
  · obtain ⟨hsaid, hleads⟩ := hown ["OPERAND1", "OPERAND2"] (by simp [ownOperands?, hor])
    rw [hsaid, hleads]
    exact connective_tours h _
  · obtain ⟨hsaid, hleads⟩ := hown ["OPERAND"] (by
      simp [ownOperands?, hgreater, hless, hequals, hand, hor, hnot])
    rw [hsaid, hleads, connections_cons, List.map_append]
    exact (truthOperand_tours h _).bind fun _ ↦ .pure _
  · obtain ⟨hsaid, hleads⟩ := hown [] (by
      simp [ownOperands?, hgreater, hless, hequals, hand, hor, hnot, hargument])
    rw [hsaid, hleads]
    exact .pure _
  · obtain ⟨hsaid, hleads⟩ := hown [] (by
      simp [ownOperands?, hgreater, hless, hequals, hand, hor, hnot, hboolean])
    rw [hsaid, hleads]
    exact .pure _
  · -- a block that is none of these has no operands of its own
    exact callText_tours h (by
      simp [ownOperands?, hgreater, hless, hequals, hand, hor, hnot, hargument, hboolean])

/-- An expression is written on a tour, and a larger bound makes no difference. -/
theorem expression_tours (catalog : Catalog) (target : Target) {n m : Nat} (hle : n ≤ m) :
    SpeakTours catalog target n (expression catalog target n) (expression catalog target m) := by
  induction n generalizing m with
  | zero =>
    intro id
    cases m with
    | zero => exact .enter (.value id) (.pure "") (.pure "") nofun
    | succ m => exact .enter (.value id) (.pure "") (.pure "") nofun
  | succ n ih =>
    obtain ⟨m, rfl⟩ : ∃ k, m = k + 1 := ⟨m - 1, by omega⟩
    intro id
    refine .enter (.value id) (.pure "") (.pure "") fun k hk block ↦ ?_
    obtain rfl : n = k := by omega
    exact blockExpression_tours (ih (by omega)) id block

/-! ### Chains -/

variable {speakChain speakChain' : SpeakChain}

/-- Whoever writes a chain runs that errand and no other. -/
def ChainTours (catalog : Catalog) (target : Target) (n : Nat)
    (speakChain speakChain' : SpeakChain) : Prop :=
  ∀ start depth, Tours catalog target n [] (start.toList.map .chain) (speakChain start depth)
    (speakChain' start depth)

/-- The branches of a block are errands to their first blocks, in order. -/
theorem branches_tours (h : ChainTours catalog target n speakChain speakChain') (depth : Nat) :
    ∀ names : List String, Tours catalog target n [] ((connections block names).map .chain)
      (branches catalog speakChain block depth names)
      (branches catalog speakChain' block depth names)
  | [] => .pure []
  | [name] => by
    have hone := h ((block.inputs.find? name).bind Slot.connected?) (depth + 1)
    rw [connections_cons, List.map_append]
    exact (List.append_nil _).symm ▸ hone
  | name :: other :: rest => by
    rw [connections_cons, List.map_append]
    exact (h ((block.inputs.find? name).bind Slot.connected?) (depth + 1)).bind fun _ ↦
      (branches_tours h depth (other :: rest)).andThen fun _ ↦ .pure _

theorem statement_tours (hs : SpeakTours catalog target n speak speak')
    (hc : ChainTours catalog target n speakChain speakChain') (id : BlockId) (block : Block)
    (depth : Nat) :
    Tours catalog target n ((Errand.chain id).remarks catalog block) (lineErrands catalog block)
      (statement catalog target speak speakChain block depth)
      (statement catalog target speak' speakChain' block depth) := by
  unfold statement Errand.remarks lineErrands lineCommand?
  by_cases hdefinition : block.opcode == Opcode.definition
  · simp only [hdefinition, if_true, Bool.true_or]
    exact .pure _
  · by_cases hcall : block.opcode == Opcode.call
    · simp only [hdefinition, hcall, if_true, Bool.or_true, Bool.false_eq_true, if_false]
      exact .pure _
    · simp only [hdefinition, hcall, Bool.or_self, Bool.false_eq_true, if_false]
      cases headerCommand? catalog block with
      | none => exact (Tours.remark _).bind fun _ ↦ .pure _
      | some command =>
        refine (arguments_tours hs .line command).bind fun args ↦ ?_
        unfold branchReferences
        by_cases hkind : command.kind = .nesting
        · simp only [hkind, bne_self_eq_false, beq_self_eq_true, Bool.false_eq_true, if_false,
            if_true]
          exact (branches_tours hc depth _).andThen fun _ ↦ .pure _
        · simp only [bne_iff_ne, ne_eq, hkind, not_false_eq_true, beq_iff_eq, if_true, if_false]
          exact .pure _

/-- A chain is written on a tour, and a larger bound makes no difference. -/
theorem chain_tours (catalog : Catalog) (target : Target) {n m : Nat} (hle : n ≤ m) :
    ChainTours catalog target n (chain catalog target n) (chain catalog target m) := by
  induction n generalizing m with
  | zero =>
    intro start depth
    cases start with
    | none => cases m <;> exact .pure []
    | some id =>
      cases m with
      | zero => exact .enter (.chain id) (.pure _) (.pure _) nofun
      | succ m => exact .enter (.chain id) (.pure _) (.pure _) nofun
  | succ n ih =>
    obtain ⟨m, rfl⟩ : ∃ k, m = k + 1 := ⟨m - 1, by omega⟩
    intro start depth
    cases start with
    | none => exact .pure []
    | some id =>
      refine .enter (.chain id) (.pure _) (.pure _) fun k hk block ↦ ?_
      obtain rfl : n = k := by omega
      have hchain := ih (m := m) (by omega)
      exact (statement_tours (expression_tours catalog
        target (by omega)) hchain id block depth).bind
        fun _ ↦ (hchain block.next depth).andThen fun _ ↦ .pure _

end

/-! ### The writer without a bound -/

/-- A way to write expressions and chains that follows the graph with no bound on the way: each
block at its first visit, and nothing at a later one. -/
structure IsWriter (catalog : Catalog) (target : Target) (speak : Speak) (speakChain : SpeakChain) :
    Prop where
  /-- An expression is written by writing the expressions in it. -/
  value : ∀ id, speak id = do
    match ← enter target id with
    | .first block => blockExpression catalog target speak block
    | _ => return ""
  /-- Where there is no block a chain ends. -/
  nothing : ∀ depth, speakChain none depth = return []
  /-- A chain is written by writing its first block with what is below it, and then the rest. -/
  chain : ∀ id depth, speakChain (some id) depth = do
    match ← enter target id with
    | .missing => return []
    | .again => return [cycleLine depth id]
    | .first block =>
      let lines ← statement catalog target speak speakChain block depth
      return lines ++ (← speakChain block.next depth)

namespace IsWriter

variable {catalog : Catalog} {target : Target} {speak speak' : Speak}
  {speakChain speakChain' : SpeakChain}

/-- Two writers of the same target go on the same tours for values. -/
theorem speakTours (h : IsWriter catalog target speak speakChain)
    (h' : IsWriter catalog target speak' speakChain') (n : Nat) :
    SpeakTours catalog target n speak speak' := by
  induction n with
  | zero =>
    intro id
    rw [h.value, h'.value]
    exact .enter (.value id) (.pure "") (.pure "") nofun
  | succ n ih =>
    intro id
    rw [h.value, h'.value]
    refine .enter (.value id) (.pure "") (.pure "") fun k hk block ↦ ?_
    obtain rfl : n = k := by omega
    exact blockExpression_tours ih id block

/-- Two writers of the same target go on the same tours for chains. -/
theorem chainTours (h : IsWriter catalog target speak speakChain)
    (h' : IsWriter catalog target speak' speakChain') (n : Nat) :
    ChainTours catalog target n speakChain speakChain' := by
  induction n with
  | zero =>
    intro start depth
    cases start with
    | none =>
      rw [h.nothing, h'.nothing]
      exact .pure []
    | some id =>
      rw [h.chain, h'.chain]
      exact .enter (.chain id) (.pure _) (.pure _) nofun
  | succ n ih =>
    intro start depth
    cases start with
    | none =>
      rw [h.nothing, h'.nothing]
      exact .pure []
    | some id =>
      rw [h.chain, h'.chain]
      refine .enter (.chain id) (.pure _) (.pure _) fun k hk block ↦ ?_
      obtain rfl : n = k := by omega
      exact (statement_tours (h.speakTours h' n) ih id block depth).bind
        fun _ ↦ (ih block.next depth).andThen fun _ ↦ .pure _

/-- There is no more than one way to write a target. -/
theorem unique (h : IsWriter catalog target speak speakChain)
    (h' : IsWriter catalog target speak' speakChain') :
    speak' = speak ∧ speakChain' = speakChain := by
  constructor
  · funext id w
    exact (h.speakTours h' (w.room target) id w (Nat.le_refl _)).1
  · funext start depth w
    exact (h.chainTours h' (w.room target) start depth w (Nat.le_refl _)).1

end IsWriter

/-- No walk has more blocks left than the target has. -/
theorem Walk.room_le_size (target : Target) (w : Walk) : w.room target ≤ target.blocks.size := by
  have hsize : target.blocks.size = target.blocks.keys.length := (List.length_map _).symm
  rw [hsize]
  exact List.length_filter_le _ _

/-- The number of blocks is bound enough: the writer is the one without a bound. -/
theorem isWriter_size (catalog : Catalog) (target : Target) :
    IsWriter catalog target (expression catalog target target.blocks.size)
      (chain catalog target target.blocks.size) := by
  have hvalue := expression_tours catalog target (Nat.le_succ target.blocks.size)
  have hchain := chain_tours catalog target (Nat.le_succ target.blocks.size)
  refine ⟨fun id ↦ ?_, fun depth ↦ ?_, fun id depth ↦ ?_⟩
  · funext w
    exact (hvalue id w (w.room_le_size target)).1.symm
  · cases target.blocks.size <;> rfl
  · funext w
    exact (hchain (some id) depth w (w.room_le_size target)).1.symm

/-! ### Listings -/

/-- The scripts of a target are written on a tour through its roots. -/
theorem scripts_tours (catalog : Catalog) (target : Target) :
    Tours catalog target target.blocks.size [] (target.roots.map .chain)
      (scripts catalog target) (scripts catalog target) := by
  have hchain := chain_tours catalog target (Nat.le_refl target.blocks.size)
  unfold scripts
  induction target.roots with
  | nil => exact .pure []
  | cons root roots ih =>
    rw [List.mapM_cons, List.map_cons, ← List.singleton_append]
    exact (hchain (some root) 0).bind fun _ ↦ ih.andThen fun _ ↦ .pure _

/-- The warnings that the stops of a tour become in the listing of a target. -/
def tourWarnings (catalog : Catalog) (target : Target) (stops : List Stop) : List Warning :=
  (stops.flatMap (Stop.remarks catalog)).map fun r ↦ ⟨0, r, some target.name⟩

/-- There is one warning of a circle for each return to its block. -/
theorem count_tourWarnings (catalog : Catalog) (target : Target) (id : BlockId)
    (stops : List Stop) :
    (tourWarnings catalog target stops).count ⟨0, .cyclicChain id, some target.name⟩ =
      stops.countP (Stop.isReturnTo id) := by
  have hinjective : Function.Injective fun r ↦ (⟨0, r, some target.name⟩ : Warning) :=
    fun a b h ↦ (Warning.mk.inj h).2.1
  rw [tourWarnings, List.count_map_of_injective _ _ hinjective]
  induction stops with
  | nil => rfl
  | cons stop stops ih =>
    rw [List.flatMap_cons, List.count_append, Stop.count_remarks, ih, List.countP_cons,
      Nat.add_comm]

/-- The last of the lines, if there is one, is not empty. -/
def IsTrimmed (lines : List String) : Prop :=
  ∀ line ∈ lines.getLast?, line ≠ ""

theorem IsTrimmed.append {lines more : List String} (h : IsTrimmed lines) (hmore : IsTrimmed more) :
    IsTrimmed (lines ++ more) := by
  intro line hline
  rw [List.getLast?_append, Option.mem_def, Option.or_eq_some_iff] at hline
  exact hline.elim (hmore line) fun hline ↦ h line hline.2

theorem isTrimmed_flatMap {α : Type} {f : α → List String} {xs : List α}
    (h : ∀ x ∈ xs, IsTrimmed (f x)) : IsTrimmed (xs.flatMap f) := by
  induction xs with
  | nil => exact nofun
  | cons x xs ih =>
    obtain ⟨hx, hxs⟩ := List.forall_mem_cons.1 h
    exact hx.append (ih hxs)

/-- Nothing is cut off from lines that do not end with an empty one. -/
theorem IsTrimmed.dropTrailingBlank {lines : List String} (h : IsTrimmed lines) :
    dropTrailingBlank lines = lines := by
  cases hrev : lines.reverse with
  | nil => rw [Listing.dropTrailingBlank, List.reverse_eq_nil_iff.1 hrev]; rfl
  | cons last front =>
    have hlast : last ≠ "" := h last (by rw [← List.head?_reverse, hrev]; rfl)
    rw [Listing.dropTrailingBlank, hrev, List.dropWhile_cons_of_neg (by simpa using hlast), ← hrev,
      List.reverse_reverse]

/-- Every section ends with its end, and a listing without sections with its banner. -/
theorem isTrimmed_sections (catalog : Catalog) (program : Program) :
    IsTrimmed (banner ++ stageSection (targetLines catalog program.stage).1 ++
      program.sprites.flatMap fun sprite ↦ spriteSection sprite
        (targetLines catalog sprite).1) := by
  have hend : ∀ lines : List String, IsTrimmed (lines ++ ["end"]) := fun lines line hline ↦ by
    rw [List.getLast?_concat] at hline
    exact Option.some.inj hline ▸ by decide
  have hbanner : IsTrimmed banner := by unfold IsTrimmed; decide
  refine (hbanner.append ?_).append (isTrimmed_flatMap fun sprite _ ↦ hend _)
  unfold stageSection
  split
  · exact nofun
  · exact hend _

/-- The lines of a program are its banner and its sections: nothing is cut off at the end. -/
theorem programLines_eq (catalog : Catalog) (program : Program) :
    programLines catalog program = banner ++ stageSection (targetLines catalog program.stage).1 ++
      program.sprites.flatMap fun sprite ↦ spriteSection sprite (targetLines catalog sprite).1 :=
  (isTrimmed_sections catalog program).dropTrailingBlank

/-- The stops are the way that the writer of a target takes. -/
structure IsTourOf (catalog : Catalog) (target : Target) (stops : List Stop) : Prop where
  /-- The writer follows the graph as if there were no bound. -/
  writer : IsWriter catalog target (expression catalog target target.blocks.size)
    (chain catalog target target.blocks.size)
  /-- Nothing else does. -/
  unique : ∀ speak speakChain, IsWriter catalog target speak speakChain →
    speak = expression catalog target target.blocks.size ∧
      speakChain = chain catalog target target.blocks.size
  /-- The way leads through all scripts and ends with nothing left to do. -/
  tour : Tour catalog target [] (target.roots.map .chain) stops
  /-- The blocks written on the way are those that the writer has on record, in this order. -/
  visited : ((scripts catalog target).run {}).2.visited = written stops
  /-- No block is written twice. -/
  once : (written stops).Nodup
  /-- The warnings are those of the stops; a stop where there is no block has none. -/
  warnings : (targetLines catalog target).2 = tourWarnings catalog target stops
  /-- Each return to a block that was written before has exactly one warning that names it. -/
  returns : ∀ id, (targetLines catalog target).2.count ⟨0, .cyclicChain id, some target.name⟩ =
    stops.countP (Stop.isReturnTo id)

/-- **The writing of a program comes to an end on every graph, and writes no block twice.** The text
and the warnings are those of the tours through its targets. -/
theorem exists_tour_ofProgram (catalog : Catalog) (program : Program) :
    ∃ tour : Target → List Stop, (∀ target, IsTourOf catalog target (tour target)) ∧
      (ofProgram catalog program).warnings =
        program.targets.flatMap (fun target ↦ tourWarnings catalog target (tour target)) ∧
      (ofProgram catalog program).text =
        Text.join "\n" (banner ++ stageSection (targetLines catalog program.stage).1 ++
          program.sprites.flatMap fun sprite ↦
            spriteSection sprite (targetLines catalog sprite).1) := by
  have htarget : ∀ target : Target, ∃ stops,
      Tour catalog target [] (target.roots.map .chain) stops ∧
        ((scripts catalog target).run {}).2.visited = written stops ∧
        (targetLines catalog target).2 = tourWarnings catalog target stops := by
    intro target
    obtain ⟨-, stops, htour, hafter⟩ := scripts_tours catalog target {} (Walk.room_le_size target _)
    refine ⟨stops, htour, ?_, ?_⟩
    · rw [hafter]
      simp [Walk.after, Walk.say]
    · show ((scripts catalog target).run {}).2.remarks.map _ = _
      rw [hafter]
      simp [Walk.after, Walk.say, tourWarnings]
  choose tour htour hvisited hwarnings using htarget
  refine ⟨tour, fun target ↦ ?_, ?_, ?_⟩
  · have hwriter := isWriter_size catalog target
    have hnodup := (htour target).nodup_written List.nodup_nil
    rw [List.nil_append] at hnodup
    refine ⟨hwriter, fun _ _ h ↦ hwriter.unique h, htour target, hvisited target, hnodup,
      hwarnings target, fun id ↦ ?_⟩
    rw [hwarnings, count_tourWarnings]
  · show program.targets.flatMap (fun target ↦ (targetLines catalog target).2) = _
    simp only [hwarnings]
  · rw [ofProgram, programLines_eq]

/-- Two blocks in a circle, a value that two statements share, and a chain that leads nowhere. -/
def knottedSprite : Target where
  kind := .sprite
  name := "Cat"
  blocks := .ofList [
    ("a", { opcode := "looks_show", next := some "b", place := some ⟨0, 0⟩ }),
    ("b", { opcode := "looks_hide", parent := some "a", next := some "a" }),
    ("c", { opcode := "looks_say", inputs := .ofList [("MESSAGE", .block "e")], next := some "gone",
            place := some ⟨0, 1⟩ }),
    ("d", { opcode := "looks_say", inputs := .ofList [("MESSAGE", .block "e")],
            place := some ⟨0, 2⟩ }),
    ("e", { opcode := "sensing_answer", parent := some "c" })]

/-- Each block is written once. The circle and the second use of the value have a warning each, and
the end that leads nowhere has none. -/
theorem exists_tour_ofProgram_knotted :
    ∃ tour : Target → List Stop, IsTourOf .builtin knottedSprite (tour knottedSprite) ∧
      written (tour knottedSprite) = ["a", "b", "c", "e", "d"] ∧
      targetLines .builtin knottedSprite =
        (["show", "hide", "# warning: cyclic block chain at a", "", "say @answer()", "",
            "say \"Hello!\""],
          [⟨0, .cyclicChain "a", some "Cat"⟩, ⟨0, .cyclicChain "e", some "Cat"⟩]) := by
  obtain ⟨tour, htour, -⟩ := exists_tour_ofProgram .builtin
    { stage := { kind := .stage, name := "Stage" }, sprites := [knottedSprite], extensions := [] }
  -- the scripts are in order already, so nothing needs to be sorted
  have hroots : knottedSprite.roots = ["a", "c", "d"] := by
    rw [Target.roots, List.mergeSort_of_pairwise (by decide +kernel)]
    decide +kernel
  refine ⟨tour, htour knottedSprite, ?_, ?_⟩
  · rw [← (htour knottedSprite).visited, scripts, hroots]
    decide +kernel
  · rw [targetLines, scripts, hroots]
    decide +kernel

end BlockScript.Listing

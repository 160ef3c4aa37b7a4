import BlockScript.Proofs.Inline
import BlockScript.Proofs.Remarks
import BlockScript.Proofs.Renaming

/-!
# Two runs of the same work

Much of what holds of the work on drafts holds for one reason: a relation between two drafts, or a
property of one, is kept by every elementary operation, and so by the work that is made of them. A
`Bond` is such a relation between the drafts of two runs of the same work, together with what the
two runs call the same things. It may depend on the warnings told so far. A property of single
drafts is a bond of each run with itself (`Draft.Property.bond`).

`Bond.Holds` says that two pieces of work keep a bond while they tell the same remarks: both come to
an end, with related results, or both stop at the same fault. It composes along the work, one rule
for each way of putting work together. What a bond needs in order to be kept by all parts of the
work is `Bond.IsKept` for the slots of a block and `Bond.IsKeptByLines` for lines: one field for
each elementary operation.
-/

namespace BlockScript

/-! ### What a catalog offers -/

/-- The operation codes of blocks that are made without a command that names them. -/
def Opcode.grammar : List String :=
  [flagClicked, definition, prototype, ifElse, greater, less, equals, not]

/-- The operation codes of the blocks that a command makes. -/
def Command.opcodes (c : Command) : List String :=
  c.opcode :: c.inputs.filterMap InputSpec.menuOpcode

/-- The operation codes of the blocks that lines of a target can make. -/
def Catalog.opcodes (catalog : Catalog) (target : TargetKind) : List String :=
  Opcode.grammar ++
    (catalog.commands.values.filter (·.isAvailableOn target)).flatMap Command.opcodes

/-- A field of the blocks of an operation code, with the table of symbols that it names one of. -/
structure Binding where
  /-- The operation code. -/
  opcode : String
  /-- The name of the field. -/
  field : String
  /-- The table. -/
  symbols : Option SymbolKind
deriving DecidableEq, Repr

/-- The field of the shadow block of a menu. -/
def InputSpec.binding? (spec : InputSpec) : Option Binding :=
  spec.menuOpcode.map fun opcode ↦ ⟨opcode, spec.menuField.getD spec.name, spec.symbols⟩

/-- The fields of the blocks that a command makes. -/
def Command.bindings (c : Command) : List Binding :=
  (c.fields.map fun spec ↦ ⟨c.opcode, spec.name, spec.symbols⟩) ++
    c.inputs.filterMap InputSpec.binding?

/-- The fields that the commands of a catalog describe. -/
def Catalog.bindings (catalog : Catalog) : List Binding :=
  catalog.commands.values.flatMap Command.bindings

namespace Catalog

variable {catalog : Catalog} {target : TargetKind} {c : Command}

/-- The operation codes of the grammar are allowed with every catalog. -/
theorem mem_opcodes_of_grammar {opcode : String} (h : opcode ∈ Opcode.grammar) :
    opcode ∈ catalog.opcodes target :=
  List.mem_append_left _ h

/-- The operation codes of an available command are allowed. -/
theorem opcodes_subset (hmem : c ∈ catalog.commands.values)
    (havailable : c.isAvailableOn target = true) : c.opcodes ⊆ catalog.opcodes target := by
  intro opcode hop
  refine List.mem_append_right _ (List.mem_flatMap.2 ⟨c, ?_, hop⟩)
  exact List.mem_filter.2 ⟨hmem, havailable⟩

/-- The fields that a command describes are fields of the catalog. -/
theorem bindings_subset (hmem : c ∈ catalog.commands.values) : c.bindings ⊆ catalog.bindings :=
  fun _ h ↦ List.mem_flatMap.2 ⟨c, hmem, h⟩

end Catalog

/-! ### Blocks with an operation code -/

namespace Draft

variable {d e : Draft} {id : BlockId} {opcode : String}

/-- The draft holds a block with an operation code. -/
def Has (d : Draft) (id : BlockId) (opcode : String) : Prop :=
  ∃ b, d.blocks.find? id = some b ∧ b.opcode = opcode

/-- A new block is there under its operation code. -/
theorem has_create (d : Draft) (opcode : String) (role : Role) :
    (d.create opcode role).2.Has (d.create opcode role).1 opcode := by
  refine ⟨d.newBlock opcode role, ?_, by cases role <;> rfl⟩
  show (d.blocks.insert _ (d.newBlock opcode role)).find? _ = _
  exact Dict.find?_insert_self _ _ _

/-- A block stays where the blocks stay as they are. -/
theorem Has.of_blocks_eq (h : d.Has id opcode)
    (heq : e.blocks = d.blocks) : e.Has id opcode := by
  rwa [Has, heq]

/-- A block keeps its operation code when a block is changed otherwise. -/
theorem Has.update (h : d.Has id opcode) (other : BlockId)
    {f : Block → Block} (hf : ∀ b, (f b).opcode = b.opcode) : (d.update other f).Has id opcode := by
  obtain ⟨b, hb, hop⟩ := h
  show ∃ b, (d.blocks.modify other f).find? id = some b ∧ b.opcode = opcode
  rw [Dict.find?_modify, hb]
  split
  · exact ⟨f b, rfl, (hf b).trans hop⟩
  · exact ⟨b, rfl, hop⟩

/-- Asking for the field of a text makes no block. -/
@[simp]
theorem blocks_fieldFor (d : Draft) (symbols : Option SymbolKind) (text fallback : String) :
    (d.fieldFor symbols text fallback).2.blocks = d.blocks := by
  cases symbols <;> rfl

/-- A block keeps its operation code when a field is set from a text. -/
theorem Has.setText (h : d.Has id opcode) (block : BlockId) (name : String)
    (symbols : Option SymbolKind) (text fallback : String) :
    (d.setText block name symbols text fallback).Has id opcode :=
  (h.of_blocks_eq (blocks_fieldFor d symbols text fallback)).update block fun _ ↦ rfl

end Draft

/-! ### Runs -/

/-- A draft is what the run of the lines leaves, if it succeeds. -/
theorem Script.draft_eq (catalog : Catalog) (kind : TargetKind) (sources : List SourceLine)
    (start : Draft) :
    draft catalog kind sources start =
      match run (Build.lines catalog kind sources) start with
      | (.ok _, d) => .ok d
      | (.error error, _) => .error error := by
  unfold draft run
  cases EStateM.run (Build.lines catalog kind sources) start <;> rfl

namespace Build

open Draft

variable {α β : Type} {d : Draft} {ok : α → Draft → Prop} {ok' : β → Draft → Prop}
  {bad : Draft → Prop}

/-- A run of two steps goes on from the draft the first one leaves. -/
theorem run_bind (work : Build α) (more : α → Build β) (d : Draft) :
    Script.run (work >>= more) d =
      match Script.run work d with
      | (.ok a, e) => Script.run (more a) e
      | (.error error, e) => (.error error, e) := by
  unfold Script.run
  rw [EStateM.run_bind]
  cases EStateM.run work d <;> rfl

/-- A run that looks at its draft goes on from it. -/
theorem run_get_bind (more : Draft → Build β) (d : Draft) :
    Script.run (get >>= more) d = Script.run (more d) d :=
  rfl

/-- What comes of a draft: the work ends with a result and a draft that fit, or it fails and leaves
a draft that fits. -/
def LeadsTo (ok : α → Draft → Prop) (bad : Draft → Prop) (work : Build α) (d : Draft) : Prop :=
  (∀ a, (Script.run work d).1 = .ok a → ok a (Script.run work d).2) ∧
    ∀ e, (Script.run work d).1 = .error e → bad (Script.run work d).2

namespace LeadsTo

/-- A plain result leaves the draft alone. -/
theorem pure {a : α} (h : ok a d) : LeadsTo ok bad (Pure.pure a) d := by
  refine ⟨fun b hb ↦ ?_, nofun⟩
  obtain rfl := Except.ok.inj hb
  exact h

/-- A fault leaves the draft alone. -/
theorem fail {line : Nat} {fault : Fault} (h : bad d) : LeadsTo ok bad (Build.fail line fault) d :=
  ⟨nofun, fun _ _ ↦ h⟩

/-- A change of the draft comes before the rest. -/
theorem modify_bind {f : Draft → Draft} {more : PUnit → Build α}
    (h : LeadsTo ok bad (more ⟨⟩) (f d)) : LeadsTo ok bad (modify f >>= more) d := h

/-- A change that gives a result hands it to the rest. -/
theorem modifyGet_bind {f : Draft → β × Draft} {more : β → Build α}
    (h : LeadsTo ok bad (more (f d).1) (f d).2) : LeadsTo ok bad (modifyGet f >>= more) d := h

/-- The rest may look at the draft it starts with. -/
theorem get_bind {more : Draft → Build α} (h : LeadsTo ok bad (more d) d) :
    LeadsTo ok bad (get >>= more) d := h

/-- The rest starts with the draft it was given. -/
theorem set_bind {e : Draft} {more : PUnit → Build α} (h : LeadsTo ok bad (more ⟨⟩) e) :
    LeadsTo ok bad (set e >>= more) d := h

/-- A change of the draft leads to the changed draft. -/
theorem modify {f : Draft → Draft} {ok : PUnit → Draft → Prop} (h : ok ⟨⟩ (f d)) :
    LeadsTo ok bad (modify f) d :=
  ⟨fun _ _ ↦ h, nofun⟩

/-- A new draft in place of the old one is where the work ends. -/
theorem set {e : Draft} {ok : PUnit → Draft → Prop} (h : ok ⟨⟩ e) : LeadsTo ok bad (set e) d :=
  ⟨fun _ _ ↦ h, nofun⟩

/-- Two steps lead where the second one leads from every end of the first. -/
theorem bind {work : Build α} {more : α → Build β} (h : LeadsTo ok bad work d)
    (hmore : ∀ a e, ok a e → LeadsTo ok' bad (more a) e) : LeadsTo ok' bad (work >>= more) d := by
  unfold LeadsTo Script.run at h ⊢
  rw [EStateM.run_bind]
  cases hrun : EStateM.run work d with
  | error x e =>
    rw [hrun] at h
    exact ⟨nofun, fun _ _ ↦ h.2 x rfl⟩
  | ok a e =>
    rw [hrun] at h
    exact hmore a e (h.1 a rfl)

/-- Where work leads may be said more weakly. -/
theorem imp {ok'' : α → Draft → Prop} {bad' : Draft → Prop} {work : Build α}
    (h : LeadsTo ok bad work d) (hok : ∀ a e, ok a e → ok'' a e) (hbad : ∀ e, bad e → bad' e) :
    LeadsTo ok'' bad' work d :=
  ⟨fun a ha ↦ hok a _ (h.1 a ha), fun e he ↦ hbad _ (h.2 e he)⟩

end LeadsTo

/-- Makes what the text of an input stands for. -/
def slotContent (embed : Embed) (line : Nat) (command : String) (spec : InputSpec) (block : BlockId)
    (raw : String) : Build Slot :=
  match spec.kind with
  | .menu => menuSlot embed line spec block raw
  | .boolean => Slot.block <$> condition embed line command raw block
  | _ => literalSlot embed line command spec block raw

/-- An input is bound by reading its text, making its content and setting the slot. -/
theorem bindInput_eq (embed : Embed) (line : Nat) (command : String) (args : Arguments)
    (block : BlockId) (spec : InputSpec) :
    bindInput embed line command args block spec = (do
      let raw ← modifyGet fun d ↦ d.inputText line command spec args
      let slot ← slotContent embed line command spec block raw
      modify fun d ↦ d.setInput block spec.name slot) := by
  unfold bindInput slotContent
  cases spec.kind <;> rfl

end Build

/-! ### Bonds -/

/-- How two runs of the same work go together. Remarks and extensions do not come into it. -/
structure Bond where
  /-- The drafts of the two runs go together once these warnings were told. -/
  drafts : List Warning → Draft → Draft → Prop
  /-- What the two runs call the same things. -/
  names : Renaming
  /-- The blocks that the work may change. -/
  own : BlockId → Prop
  /-- All texts are to stay on one line. -/
  inline : Prop
  /-- Remarks are told in both runs. -/
  tell : ∀ {told d e} (line : Nat) (remarks : List Remark), drafts told d e →
    drafts (told ++ Remarks.warnings line remarks) (d.tell line remarks) (e.tell line remarks)
  /-- An extension is marked in both runs. -/
  extension : ∀ {told d e} (extension? : Option String), drafts told d e →
    drafts told (d.useExtension extension?) (e.useExtension extension?)

namespace Bond

variable {α β γ δ : Type}

section

variable (bond : Bond)

/-- The text stays on one line, if the bond asks for it. -/
def Reads (text : String) : Prop :=
  bond.inline → Text.IsInline text

/-- The same block in both runs, which the work may change. -/
def Own (a b : BlockId) : Prop :=
  bond.own a ∧ bond.names.twin a b

/-- The same content of an input in both runs. -/
def Slots (slot slot' : Slot) : Prop :=
  slot.Renamed bond.names slot' ∧ (bond.inline → slot.IsInline)

/-- The same fallback in both runs. -/
def Fallbacks (fallback fallback' : Fallback) : Prop :=
  fallback.Renamed bond.names fallback' ∧ (bond.inline → fallback.IsInline)

/-- Two runs end in the same way, in drafts that go together: with related results, after these
warnings were told, or with the same fault. -/
inductive Ends (told : List Warning) (rel : α → β → Prop) :
    Except SourceError α × Draft → Except SourceError β × Draft → Prop where
  | done {a b d e} (hrel : rel a b) (h : bond.drafts told d e) : Ends told rel (.ok a, d) (.ok b, e)
  | stopped {error said d e} (h : bond.drafts said d e) :
    Ends told rel (.error error, d) (.error error, e)

/-- From drafts that go together on, both pieces of work end in the same way and tell these
remarks. -/
def Holds (line : Nat) (told : List Remark) (rel : α → β → Prop) (work : Build α)
    (other : Build β) : Prop :=
  ∀ ⦃before d e⦄, bond.drafts before d e →
    bond.Ends (before ++ Remarks.warnings line told) rel (Script.run work d) (Script.run other e)

/-- The makers of inner expressions go together, and tell what is remarked on these. -/
def EmbedHolds (line : Nat) (read : Remarks.Reader) (embed : Embed) : Prop :=
  ∀ ⦃text owner owner'⦄ (condition : Bool), bond.Reads text → bond.names.twin owner owner' →
    bond.Holds line (read text condition) bond.Own (embed text owner condition)
      (embed text owner' condition)

end

variable {bond : Bond} {line : Nat} {told told' : List Remark} {rel : α → β → Prop}
  {rel' : γ → δ → Prop}

/-- Ends may be compared by a weaker relation and a weaker bond. -/
theorem Ends.imp {bond' : Bond} {told : List Warning} {rel' : α → β → Prop}
    {x : Except SourceError α × Draft} {y : Except SourceError β × Draft}
    (h : bond.Ends told rel x y) (hrel : ∀ a b, rel a b → rel' a b)
    (hdrafts : ∀ {told d e}, bond.drafts told d e → bond'.drafts told d e) :
    bond'.Ends told rel' x y := by
  cases h with
  | done h hdone => exact .done (hrel _ _ h) (hdrafts hdone)
  | stopped hstopped => exact .stopped (hdrafts hstopped)

/-! ### Rules -/

/-- Telling nothing adds no warnings. -/
theorem drafts_nil {before : List Warning} {d e : Draft} (h : bond.drafts before d e) :
    bond.drafts (before ++ Remarks.warnings line []) d e := by
  rwa [Remarks.warnings, List.map_nil, List.append_nil]

namespace Holds

/-- Plain results that are related go together. -/
theorem pure {a : α} {b : β} (h : rel a b) :
    bond.Holds line [] rel (Pure.pure a) (Pure.pure b) :=
  fun _ _ _ hdrafts ↦ .done h (drafts_nil hdrafts)

/-- Work that stops tells whatever one likes. -/
theorem fail (at' : Nat) (fault : Fault) :
    bond.Holds line told rel (Build.fail at' fault) (Build.fail at' fault) :=
  fun _ _ _ hdrafts ↦ .stopped hdrafts

/-- Steps that go together one after the other tell their remarks in this order. -/
theorem bind {work : Build α} {other : Build β} {more : α → Build γ} {further : β → Build δ}
    (h : bond.Holds line told rel work other)
    (hmore : ∀ a b, rel a b → bond.Holds line told' rel' (more a) (further b)) :
    bond.Holds line (told ++ told') rel' (work >>= more) (other >>= further) := by
  intro before d e hdrafts
  have hwork := h hdrafts
  rw [Build.run_bind, Build.run_bind, Remarks.warnings_append, ← List.append_assoc]
  generalize Script.run work d = x at hwork ⊢
  generalize Script.run other e = y at hwork ⊢
  cases hwork with
  | done hrel hdone => exact hmore _ _ hrel hdone
  | stopped hstopped => exact .stopped hstopped

/-- Further work that tells nothing. -/
theorem andThen {work : Build α} {other : Build β} {more : α → Build γ} {further : β → Build δ}
    (h : bond.Holds line told rel work other)
    (hmore : ∀ a b, rel a b → bond.Holds line [] rel' (more a) (further b)) :
    bond.Holds line told rel' (work >>= more) (other >>= further) := by
  have hbind := h.bind hmore
  rwa [List.append_nil] at hbind

/-- Related results stay related under functions that respect the relations. -/
theorem map {work : Build α} {other : Build β} {f : α → γ} {g : β → δ}
    (h : bond.Holds line told rel work other) (hfg : ∀ a b, rel a b → rel' (f a) (g b)) :
    bond.Holds line told rel' (f <$> work) (g <$> other) := by
  rw [← bind_pure_comp, ← bind_pure_comp]
  exact h.andThen fun a b hab ↦ pure (hfg a b hab)

/-- A change of the draft that gives a result goes together as a whole. -/
theorem modifyGet {f : Draft → α × Draft} {g : Draft → β × Draft}
    (h : ∀ {before d e}, bond.drafts before d e → rel (f d).1 (g e).1 ∧
      bond.drafts (before ++ Remarks.warnings line told) (f d).2 (g e).2) :
    bond.Holds line told rel (modifyGet f : Build α) (modifyGet g : Build β) :=
  fun _ _ _ hdrafts ↦ .done (h hdrafts).1 (h hdrafts).2

/-- A change of the drafts that tells remarks. -/
theorem tell {f g : Draft → Draft}
    (h : ∀ {before d e}, bond.drafts before d e →
      bond.drafts (before ++ Remarks.warnings line told) (f d) (g e)) :
    bond.Holds line told Eq (modify f : Build PUnit) (modify g : Build PUnit) :=
  fun _ _ _ hdrafts ↦ .done rfl (h hdrafts)

/-- A change of the drafts that tells nothing. -/
theorem modify {f g : Draft → Draft}
    (h : ∀ {before d e}, bond.drafts before d e → bond.drafts before (f d) (g e)) :
    bond.Holds line [] Eq (modify f : Build PUnit) (modify g : Build PUnit) :=
  tell fun hdrafts ↦ drafts_nil (h hdrafts)

/-- The same warning is told in both runs. -/
theorem warn (remark : Remark) :
    bond.Holds line [remark] Eq (Build.warn line remark) (Build.warn line remark) :=
  tell fun hdrafts ↦ bond.tell line [remark] hdrafts

/-- The work may look at the draft before it goes on. -/
theorem get_bind {more : Draft → Build γ} {further : Draft → Build δ}
    (h : ∀ {before d e}, bond.drafts before d e →
      bond.Ends (before ++ Remarks.warnings line told) rel' (Script.run (more d) d)
        (Script.run (further e) e)) :
    bond.Holds line told rel' (get >>= more) (get >>= further) :=
  fun _ _ _ hdrafts ↦ h hdrafts

/-- The work may put other drafts in the place of both. -/
theorem set_bind {before : List Warning} {d e d' e' : Draft} {more : PUnit → Build γ}
    {further : PUnit → Build δ} (hdrafts : bond.drafts before d' e')
    (h : bond.Holds line told rel' (more ⟨⟩) (further ⟨⟩)) :
    bond.Ends (before ++ Remarks.warnings line told) rel' (Script.run (set d' >>= more) d)
      (Script.run (set e' >>= further) e) :=
  h hdrafts

/-- Loops over the same items go together when their bodies do, and tell what each item tells. -/
theorem forM {work other : γ → Build PUnit} {told : γ → List Remark} {items : List γ}
    (h : ∀ c ∈ items, bond.Holds line (told c) Eq (work c) (other c)) :
    bond.Holds line (items.flatMap told) Eq (items.forM work) (items.forM other) := by
  induction items with
  | nil => exact pure rfl
  | cons c items ih =>
    obtain ⟨hc, hitems⟩ := List.forall_mem_cons.1 h
    exact hc.bind fun _ _ _ ↦ ih hitems

end Holds

/-! ### What bonds need -/

/-- The elementary operations on the slots of a block keep the bond. -/
structure IsKept (bond : Bond) (catalog : Catalog) (target : TargetKind) : Prop where
  /-- If texts are to stay on one line, those of the catalog do. -/
  inline : bond.inline → catalog.IsInline
  /-- A block is made. -/
  create : ∀ {told d e opcode role role'}, opcode ∈ catalog.opcodes target →
    role.Renamed bond.names role' → bond.drafts told d e →
    bond.Own (d.create opcode role).1 (e.create opcode role').1 ∧
      bond.drafts told (d.create opcode role).2 (e.create opcode role').2
  /-- A field that the catalog describes is filled. -/
  setText : ∀ {told d e a b} {binding : Binding} {text fallback : String},
    binding ∈ catalog.bindings → d.Has a binding.opcode → bond.Own a b → bond.Reads text →
    (bond.inline → binding.symbols.isSome = true → Text.IsTidy fallback) → bond.drafts told d e →
    bond.drafts told (d.setText a binding.field binding.symbols text fallback)
      (e.setText b binding.field binding.symbols text fallback)
  /-- An input is filled. -/
  setInput : ∀ {told d e a b} (name : String) {slot slot'}, bond.Own a b → bond.Slots slot slot' →
    bond.drafts told d e → bond.drafts told (d.setInput a name slot) (e.setInput b name slot')
  /-- A block gets another parent. -/
  setParent : ∀ {told d e a b p q}, bond.Own a b → bond.names.twin p q → bond.drafts told d e →
    bond.drafts told (d.setParent a p) (e.setParent b q)

/-- The elementary operations on scripts keep the bond as well. -/
structure IsKeptByLines (bond : Bond) (catalog : Catalog) (target : TargetKind) : Prop
    extends bond.IsKept catalog target where
  /-- Both runs have the same script open. -/
  script : ∀ {told d e}, bond.drafts told d e → Option.Rel bond.names.twin d.script e.script
  /-- Both runs have the same blocks open. -/
  frames : ∀ {told d e}, bond.drafts told d e →
    List.Forall₂ (Frame.Renamed bond.names) d.frames e.frames
  /-- The cursors move. -/
  move : ∀ {told d e script script' frames frames'}, Option.Rel bond.names.twin script script' →
    List.Forall₂ (Frame.Renamed bond.names) frames frames' → bond.drafts told d e →
    bond.drafts told { d with script, frames } { e with script := script', frames := frames' }
  /-- A block goes where the cursors are. -/
  append : ∀ {told d e a b}, bond.names.twin a b → bond.drafts told d e →
    bond.drafts told (d.append a) (e.append b)
  /-- A conditional gets a second branch. -/
  branch : ∀ {told d e a b}, bond.names.twin a b → bond.drafts told d e →
    bond.drafts told (d.update a fun block ↦ { block with opcode := Opcode.ifElse })
      (e.update b fun block ↦ { block with opcode := Opcode.ifElse })
  /-- A name is asked for. -/
  intern : ∀ {told d e} (kind : SymbolKind) {name initial : String},
    (bond.inline → Text.IsTidy name) → bond.Reads initial → bond.drafts told d e →
    ((d.intern kind name initial).1.name = (e.intern kind name initial).1.name ∧
      (bond.inline → Text.IsTidy (d.intern kind name initial).1.name)) ∧
      bond.drafts told (d.intern kind name initial).2 (e.intern kind name initial).2
  /-- A block gets the procedure it is about. -/
  setProcedure : ∀ {told d e a b signature}, bond.names.twin a b →
    (bond.inline → Text.IsTidy signature) → bond.drafts told d e →
    bond.drafts told (d.setProcedure a signature) (e.setProcedure b signature)
  /-- A command is counted. -/
  countCommand : ∀ {told d e}, bond.drafts told d e →
    bond.drafts told d.countCommand e.countCommand

end Bond

/-! ### Properties of one run -/

/-- A property of the drafts of a run. Remarks and extensions do not come into it. -/
structure Draft.Property where
  /-- The draft has the property once these warnings were told. -/
  keep : List Warning → Draft → Prop
  /-- The blocks that the work may change. -/
  own : BlockId → Prop
  /-- All texts are to stay on one line. -/
  inline : Prop
  /-- Remarks are told. -/
  tell : ∀ {told d} (line : Nat) (remarks : List Remark), keep told d →
    keep (told ++ Remarks.warnings line remarks) (d.tell line remarks)
  /-- An extension is marked. -/
  extension : ∀ {told d} (extension? : Option String), keep told d →
    keep told (d.useExtension extension?)

namespace Draft.Property

/-- A property that only asks what blocks, names and cursors there are. -/
def quiet (keep : Draft → Prop) (own : BlockId → Prop) (inline : Prop)
    (h : ∀ {d e}, keep d → d.Quiet e → keep e) : Property where
  keep _ := keep
  own := own
  inline := inline
  tell line remarks hd := h hd (.tell _ line remarks)
  extension extension? hd := h hd (.useExtension _ extension?)

variable (p : Property)

/-- The bond of each run with itself that says that a property is kept. -/
def bond : Bond where
  drafts told d e := d = e ∧ p.keep told d
  names := .same
  own := p.own
  inline := p.inline
  tell line remarks h := ⟨congrArg (·.tell line remarks) h.1, p.tell line remarks h.2⟩
  extension extension? h := ⟨congrArg (·.useExtension extension?) h.1, p.extension extension? h.2⟩

/-- The elementary operations on the slots of a block keep the property. -/
structure IsKept (catalog : Catalog) (target : TargetKind) : Prop where
  inline : p.inline → catalog.IsInline
  create : ∀ {told d opcode} (role : Role), opcode ∈ catalog.opcodes target → p.keep told d →
    p.own (d.create opcode role).1 ∧ p.keep told (d.create opcode role).2
  setText : ∀ {told d id} {binding : Binding} {text fallback : String},
    binding ∈ catalog.bindings → d.Has id binding.opcode → p.own id →
    (p.inline → Text.IsInline text) →
    (p.inline → binding.symbols.isSome = true → Text.IsTidy fallback) → p.keep told d →
    p.keep told (d.setText id binding.field binding.symbols text fallback)
  setInput : ∀ {told d id} (name : String) {slot : Slot}, p.own id → (p.inline → slot.IsInline) →
    p.keep told d → p.keep told (d.setInput id name slot)
  setParent : ∀ {told d id} (parent : BlockId), p.own id → p.keep told d →
    p.keep told (d.setParent id parent)

/-- The elementary operations on scripts keep the property as well. -/
structure IsKeptByLines (catalog : Catalog) (target : TargetKind) : Prop
    extends p.IsKept catalog target where
  move : ∀ {told d} (script : Option BlockId) (frames : List Frame), p.keep told d →
    p.keep told { d with script, frames }
  append : ∀ {told d} (id : BlockId), p.keep told d → p.keep told (d.append id)
  branch : ∀ {told d} (id : BlockId), p.keep told d →
    p.keep told (d.update id fun block ↦ { block with opcode := Opcode.ifElse })
  intern : ∀ {told d} (kind : SymbolKind) {name initial : String},
    (p.inline → Text.IsTidy name) → (p.inline → Text.IsInline initial) → p.keep told d →
    (p.inline → Text.IsTidy (d.intern kind name initial).1.name) ∧
      p.keep told (d.intern kind name initial).2
  setProcedure : ∀ {told d} (id : BlockId) {signature : String},
    (p.inline → Text.IsTidy signature) → p.keep told d → p.keep told (d.setProcedure id signature)
  countCommand : ∀ {told d}, p.keep told d → p.keep told d.countCommand

variable {p} {catalog : Catalog} {target : TargetKind}

/-- A property that every step keeps is a bond of a run with itself. -/
theorem IsKept.bond (h : p.IsKept catalog target) : p.bond.IsKept catalog target where
  inline := h.inline
  create hop hrole hd := by
    obtain ⟨rfl, hd⟩ := hd
    obtain rfl := hrole.eq
    obtain ⟨hown, hkeep⟩ := h.create _ hop hd
    exact ⟨⟨hown, rfl⟩, rfl, hkeep⟩
  setText hbinding hhas hid htext hfallback hd := by
    obtain ⟨rfl, hd⟩ := hd
    obtain ⟨hown, rfl⟩ := hid
    exact ⟨rfl, h.setText hbinding hhas hown htext hfallback hd⟩
  setInput name _ _ hid hslot hd := by
    obtain ⟨rfl, hd⟩ := hd
    obtain ⟨hown, rfl⟩ := hid
    obtain rfl := hslot.1.eq
    exact ⟨rfl, h.setInput name hown hslot.2 hd⟩
  setParent hid hparent hd := by
    obtain ⟨rfl, hd⟩ := hd
    obtain ⟨hown, rfl⟩ := hid
    obtain rfl : _ = _ := hparent
    exact ⟨rfl, h.setParent _ hown hd⟩

/-- A property that every line keeps is a bond of a run with itself. -/
theorem IsKeptByLines.bond (h : p.IsKeptByLines catalog target) :
    p.bond.IsKeptByLines catalog target where
  toIsKept := h.toIsKept.bond
  script hd := by
    obtain ⟨rfl, -⟩ := hd
    exact optionRel_refl _
  -- with one run in place of two, related drafts are the same draft
  frames hd := by
    obtain ⟨rfl, -⟩ := hd
    exact forall₂_renamed_same.2 rfl
  move hscript hframes hd := by
    obtain ⟨rfl, hd⟩ := hd
    obtain rfl := optionRel_eq hscript
    obtain rfl := forall₂_renamed_same.1 hframes
    exact ⟨rfl, h.move _ _ hd⟩
  append hid hd := by
    obtain ⟨rfl, hd⟩ := hd
    obtain rfl : _ = _ := hid
    exact ⟨rfl, h.append _ hd⟩
  branch hid hd := by
    obtain ⟨rfl, hd⟩ := hd
    obtain rfl : _ = _ := hid
    exact ⟨rfl, h.branch _ hd⟩
  intern kind _ _ hname hinitial hd := by
    obtain ⟨rfl, hd⟩ := hd
    obtain ⟨htidy, hkeep⟩ := h.intern kind hname hinitial hd
    exact ⟨⟨rfl, htidy⟩, rfl, hkeep⟩
  setProcedure hid hsignature hd := by
    obtain ⟨rfl, hd⟩ := hd
    obtain rfl : _ = _ := hid
    exact ⟨rfl, h.setProcedure _ hsignature hd⟩
  countCommand hd := by
    obtain ⟨rfl, hd⟩ := hd
    exact ⟨rfl, h.countCommand hd⟩

/-- Work that keeps a property leads to it, whether it succeeds or stops. -/
theorem leadsTo {α : Type} {told : List Warning} {rel : α → α → Prop} {work : Build α} {d : Draft}
    (h : p.bond.Ends told rel (Script.run work d) (Script.run work d)) :
    Build.LeadsTo (fun a e ↦ rel a a ∧ p.keep told e) (fun e ↦ ∃ said, p.keep said e) work d := by
  unfold Build.LeadsTo
  generalize Script.run work d = outcome at h ⊢
  obtain ⟨error | a, e⟩ := outcome
  · cases h with
    | stopped hstopped => exact ⟨nofun, fun _ _ ↦ ⟨_, hstopped.2⟩⟩
  · cases h with
    | done hrel hdone =>
      refine ⟨fun b hb ↦ ?_, nofun⟩
      obtain rfl := Except.ok.inj hb
      exact ⟨hrel, hdone.2⟩

end Draft.Property

end BlockScript

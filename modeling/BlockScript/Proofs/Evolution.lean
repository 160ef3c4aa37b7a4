import Mathlib.Logic.Relation
import BlockScript.Proofs.Walking

/-!
# What lines do to a draft

Whatever the lines of a target say, and whether or not they can be read to their end, a draft
changes in small steps only (`Draft.Step`): a block is made, a block is changed, a name is asked
for, a field is filled, or a cursor, a remark or a mark of an extension changes.
`Build.lines_evolves` says that reading lines is a sequence of such steps, in its success as in its
failure. So what every step keeps holds of every draft that lines lead to
(`Draft.Evolves.invariant`).

A step makes no blocks but those of the grammar and of the commands that the target can use
(`Catalog.opcodes`), and it fills no fields but those that the catalog describes
(`Catalog.bindings`).
-/

namespace BlockScript

/-! ### Steps -/

namespace Draft

variable {catalog : Catalog} {target : TargetKind} {d e f : Draft}

/-- One change of a draft while lines are read. -/
inductive Step (catalog : Catalog) (target : TargetKind) : Draft → Draft → Prop where
  /-- A block is made. -/
  | create (d : Draft) {opcode : String} (role : Role) (h : opcode ∈ catalog.opcodes target) :
    Step catalog target d (d.create opcode role).2
  /-- A block is changed, but neither its operation code nor its fields. -/
  | update (d : Draft) (id : BlockId) (f : Block → Block)
    (h : ∀ b, (f b).opcode = b.opcode ∧ (f b).fields = b.fields) :
    Step catalog target d (d.update id f)
  /-- A conditional gets a second branch. -/
  | branch (d : Draft) (id : BlockId) :
    Step catalog target d (d.update id fun b ↦ { b with opcode := Opcode.ifElse })
  /-- A name is asked for. -/
  | intern (d : Draft) (kind : SymbolKind) (name initial : String) :
    Step catalog target d (d.intern kind name initial).2
  /-- A field is filled. -/
  | bind (d : Draft) {id : BlockId} {b : Binding} (hid : d.Has id b.opcode)
    (hb : b ∈ catalog.bindings) (text fallback : String) :
    Step catalog target d ((d.fieldFor b.symbols text fallback).2.setField id b.field
      (d.fieldFor b.symbols text fallback).1)
  /-- Blocks and names stay as they are. -/
  | move {d e : Draft} (blocks : e.blocks = d.blocks) (ids : e.ids = d.ids)
    (symbols : e.symbols = d.symbols) : Step catalog target d e

/-- A draft becomes another one in any number of steps. -/
def Evolves (catalog : Catalog) (target : TargetKind) : Draft → Draft → Prop :=
  Relation.ReflTransGen (Step catalog target)

namespace Evolves

theorem refl : Evolves catalog target d d := Relation.ReflTransGen.refl

theorem trans (h : Evolves catalog target d e) (h' : Evolves catalog target e f) :
    Evolves catalog target d f :=
  Relation.ReflTransGen.trans h h'

theorem step (h : Step catalog target d e) : Evolves catalog target d e :=
  Relation.ReflTransGen.single h

/-- What every step keeps is kept in any number of steps. -/
theorem invariant {inv : Draft → Prop} (hstep : ∀ d e, Step catalog target d e → inv d → inv e)
    (h : Evolves catalog target d e) (hd : inv d) : inv e := by
  induction h with
  | refl => exact hd
  | tail _ hlast ih => exact hstep _ _ hlast ih

/-- Nothing but remarks, extensions and cursors changes. -/
theorem of_quiet (h : d.Quiet e) : Evolves catalog target d e :=
  step (.move h.blocks h.ids h.symbols)

/-- A change that keeps operation codes and fields is a step. -/
theorem update (d : Draft) (id : BlockId) {f : Block → Block}
    (h : ∀ b, (f b).opcode = b.opcode ∧ (f b).fields = b.fields) :
    Evolves catalog target d (d.update id f) :=
  step (.update d id f h)

end Evolves

/-! ### Operations on drafts -/

/-- Setting an input is a step. -/
theorem evolves_setInput (d : Draft) (id : BlockId) (name : String) (slot : Slot) :
    Evolves catalog target d (d.setInput id name slot) :=
  .update d id fun _ ↦ ⟨rfl, rfl⟩

theorem evolves_setParent (d : Draft) (id parent : BlockId) :
    Evolves catalog target d (d.setParent id parent) :=
  .update d id fun _ ↦ ⟨rfl, rfl⟩

/-- Linking two blocks is a step, or two. -/
theorem evolves_link (d : Draft) (first second : BlockId) :
    Evolves catalog target d (d.link first second) := by
  have hnext : Evolves catalog target d (d.update first fun b ↦ { b with next := some second }) :=
    .update d first fun _ ↦ ⟨rfl, rfl⟩
  exact hnext.trans (evolves_setParent _ second first)

/-- Adding a block to the open script comes about by steps. -/
theorem evolves_append (d : Draft) (id : BlockId) : Evolves catalog target d (d.append id) := by
  -- the cursor moves first, then the block is tied to what comes before it
  have hmove : ∀ (frames : List Frame) (script : Option BlockId),
      Evolves catalog target d { d with frames, script } := fun _ _ ↦ .step (.move rfl rfl rfl)
  obtain heq | ⟨frames, script, ⟨last, heq⟩ | ⟨frame, -, input, heq⟩⟩ := d.append_cases id <;>
    rw [heq]
  · exact .refl
  · exact (hmove frames script).trans (evolves_link _ _ _)
  · exact (hmove frames script).trans ((evolves_setInput _ _ _ _).trans (evolves_setParent _ _ _))


/-! ### Lines -/

namespace Property

/-- The draft came about in steps from an earlier one. -/
def evolving (catalog : Catalog) (target : TargetKind) (base : Draft) : Property :=
  quiet (Evolves catalog target base) (fun _ ↦ True) False fun hd h ↦ hd.trans (.of_quiet h)

/-- Every operation is a step. -/
theorem evolving_isKept (catalog : Catalog) (target : TargetKind) (base : Draft) :
    (evolving catalog target base).IsKeptByLines catalog target where
  inline := False.elim
  create role hop h := ⟨trivial, Evolves.trans h (.step (.create _ role hop))⟩
  setText hbinding hhas _ _ _ h := Evolves.trans h (.step (.bind _ hhas hbinding _ _))
  setInput name _ _ _ h := Evolves.trans h (evolves_setInput _ _ name _)
  setParent parent _ h := Evolves.trans h (evolves_setParent _ _ parent)
  move _ _ h := Evolves.trans h (.step (.move rfl rfl rfl))
  append id h := Evolves.trans h (evolves_append _ id)
  branch id h := Evolves.trans h (.step (.branch _ id))
  intern kind _ _ _ _ h := ⟨False.elim, Evolves.trans h (.step (.intern _ kind _ _))⟩
  setProcedure id _ _ h := Evolves.trans h (.update _ id fun _ ↦ ⟨rfl, rfl⟩)
  countCommand h := Evolves.trans h (.step (.move rfl rfl rfl))

end Property

end Draft

namespace Build

variable {α : Type} {catalog : Catalog} {target : TargetKind}

/-- Whether it succeeds or fails, the work leads from every draft to its last draft step by step. -/
def Evolves (catalog : Catalog) (target : TargetKind) (work : Build α) : Prop :=
  ∀ d, Draft.Evolves catalog target d (Script.run work d).2

/-- Work that keeps the bond of drafts that came about in steps is a sequence of steps. -/
theorem evolves_of_ends {told : List Warning} {work : Build α}
    (h : ∀ d, (Draft.Property.evolving catalog target d).bond.drafts [] d d →
      (Draft.Property.evolving catalog target d).bond.Ends ([] ++ told) Eq (Script.run work d)
        (Script.run work d)) : Evolves catalog target work := by
  intro d
  have hleads := Draft.Property.leadsTo (h d ⟨rfl, .refl⟩)
  cases hrun : (Script.run work d).1 with
  | ok a => exact (hleads.1 a hrun).2
  | error error =>
    obtain ⟨_, hevolves⟩ := hleads.2 error hrun
    exact hevolves

/-- Reading lines one after the other is a sequence of steps, also when it stops at a fault. -/
theorem sources_evolve (sources : List SourceLine) :
    Evolves catalog target (sources.forM (line catalog target)) :=
  evolves_of_ends fun d ↦ Bond.sources_hold (Draft.Property.evolving_isKept catalog target d).bond
    fun _ _ ↦ False.elim

/-- Reading the lines of a target is a sequence of steps, also when it stops at a fault. -/
theorem lines_evolves (sources : List SourceLine) :
    Evolves catalog target (lines catalog target sources) :=
  evolves_of_ends fun d ↦ Bond.lines_holds (Draft.Property.evolving_isKept catalog target d).bond
    fun _ _ ↦ False.elim

end Build

end BlockScript

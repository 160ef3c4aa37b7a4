import BlockScript.Proofs.Walking

/-!
# Work that only adds

Making the blocks of an expression adds blocks to a draft. Whether it comes to its end or stops at a
fault, every block that was there before stays as it was, and so do the cursors (`Draft.Extends`,
`Build.expression_adds`): what an expression changes are blocks that it made itself.

`Draft.IsStable` says of a property of drafts that such additions keep it. The slots of a block are
filled by additions and by changes of that block alone, so a stable property that allows these
changes is kept by filling them (`Build.bindSlots_maintains`).
-/

namespace BlockScript

namespace Draft

variable {base d e f : Draft}

/-- All blocks of one draft are in another one as they were. -/
def Spares (d e : Draft) : Prop :=
  ∀ id b, d.blocks.find? id = some b → e.blocks.find? id = some b

/-- All blocks of one draft are in another one as they were, and the next block goes where it would
have gone. -/
structure Extends (base d : Draft) : Prop where
  spares : base.Spares d
  fresh : d.Fresh
  frames : d.frames = base.frames
  script : d.script = base.script

namespace Extends

/-- A draft extends itself when its identifiers are fresh. -/
theorem refl (h : d.Fresh) : d.Extends d where
  spares _ _ hb := hb
  fresh := h
  frames := rfl
  script := rfl

/-- An extension of an extension is an extension. -/
theorem trans (h : d.Extends e) (h' : e.Extends f) : d.Extends f where
  spares id b hb := h'.spares id b (h.spares id b hb)
  fresh := h'.fresh
  frames := h'.frames.trans h.frames
  script := h'.script.trans h.script

/-- Steps that leave blocks and symbols alone extend a draft. -/
theorem of_quiet (h : d.Fresh) (hq : d.Quiet e) : d.Extends e where
  spares id b hb := by rwa [hq.blocks]
  fresh := (hq.grows h).fresh
  frames := congrArg Prod.fst hq.desk
  script := congrArg (·.2.1) hq.desk

/-- Asking for a symbol extends a draft. -/
theorem intern (h : d.Fresh) (kind : SymbolKind) (name initial : String) :
    d.Extends (d.intern kind name initial).2 where
  spares _ _ hb := hb
  fresh := (Grows.intern h kind name initial).fresh
  frames := rfl
  script := rfl

/-- Asking for the field of a text extends a draft. -/
theorem fieldFor (h : d.Fresh) (symbols : Option SymbolKind) (text fallback : String) :
    d.Extends (d.fieldFor symbols text fallback).2 := by
  cases symbols with
  | none => exact refl h
  | some kind => exact intern h kind _ ""

/-- A block of the first draft is no new one. -/
theorem find?_nextId (h : base.Extends d) : base.blocks.find? d.nextId = none := by
  by_contra hne
  obtain ⟨b, hb⟩ := Option.ne_none_iff_exists'.1 hne
  have hthere := h.spares _ b hb
  rw [h.fresh.find?_next] at hthere
  exact absurd hthere nofun

/-- A new block extends a draft. -/
theorem create (h : d.Fresh) (opcode : String) (role : Role) :
    d.Extends (d.create opcode role).2 where
  spares id b hb := by
    have hne : id ≠ d.nextId := by
      rintro rfl
      rw [h.find?_next] at hb
      exact absurd hb nofun
    rw [find?_create, if_neg hne, hb]
  fresh := (Grows.create h opcode role).fresh
  frames := rfl
  script := rfl

/-- A block that is not of the first draft may change. -/
theorem update (h : base.Extends d) {id : BlockId} (hid : base.blocks.find? id = none)
    (f : Block → Block) : base.Extends (d.update id f) where
  spares other b hb := by
    have hne : other ≠ id := by
      rintro rfl
      rw [hid] at hb
      exact absurd hb nofun
    show (d.blocks.modify id f).find? other = some b
    rw [Dict.find?_modify, if_neg hne]
    exact h.spares other b hb
  fresh := (Grows.update h.fresh id f).fresh
  frames := h.frames
  script := h.script

/-- A field set in a block that is new to the draft extends it. -/
theorem setText (h : base.Extends d) {id : BlockId} (hid : base.blocks.find? id = none)
    (name : String) (symbols : Option SymbolKind) (text fallback : String) :
    base.Extends (d.setText id name symbols text fallback) :=
  (h.trans (.fieldFor h.fresh symbols text fallback)).update hid _

end Extends

/-- A property of drafts that additions keep. -/
structure IsStable (inv : Draft → Prop) : Prop where
  fresh : ∀ {d}, inv d → d.Fresh
  extended : ∀ {d e}, inv d → d.Extends e → inv e

/-- To extend a draft is a property that no such step breaks. -/
theorem Extends.isStable (base : Draft) : IsStable base.Extends :=
  ⟨Extends.fresh, Extends.trans⟩

namespace IsStable

variable {inv : Draft → Prop} {block : BlockId}

/-- Steps that leave blocks and symbols alone keep the property. -/
theorem of_quiet (h : IsStable inv) (hd : inv d) (hq : d.Quiet e) : inv e :=
  h.extended hd (.of_quiet (h.fresh hd) hq)

/-- Binding fields keeps what setting a field keeps. -/
theorem bindFields (h : IsStable inv)
    (hfield : ∀ d name field, inv d → inv (d.setField block name field)) (line : Nat)
    (command : String) (args : Arguments) (specs : List FieldSpec) (hd : inv d) :
    inv (d.bindFields line command specs args block) := by
  induction specs generalizing d with
  | nil => exact hd
  | cons spec specs ih =>
    have hquiet := (d.fieldText_eq line command spec (args.read spec.source)).2
    have htext := h.of_quiet hd hquiet
    exact ih (hfield _ _ _ (h.extended htext (.fieldFor (h.fresh htext) _ _ _)))

end IsStable

/-! ### Expressions -/

namespace Property

/-- The draft came about from an earlier one by additions. Only new blocks may change. -/
def adding (base : Draft) : Property :=
  quiet base.Extends (fun id ↦ base.blocks.find? id = none) False
    fun hd h ↦ (Extends.isStable base).of_quiet hd h

/-- Making blocks and filling new ones extends the draft from which the work started. -/
theorem adding_isKept (base : Draft) (catalog : Catalog) (target : TargetKind) :
    (adding base).IsKept catalog target where
  inline := False.elim
  create role _ h := ⟨Extends.find?_nextId h, Extends.trans h (.create h.fresh _ role)⟩
  setText _ _ hnew _ _ h := Extends.setText h hnew _ _ _ _
  setInput _ _ hnew _ h := Extends.update h hnew _
  setParent _ hnew h := Extends.update h hnew _

/-- A property that only asks what is said of blocks, names and cursors. -/
def stable {inv : Draft → Prop} (h : IsStable inv) : Property :=
  quiet inv (fun _ ↦ True) False h.of_quiet

end Property

end Draft

namespace Build

open Draft

/-- Whatever comes of it, the maker of inner expressions adds to every draft and changes nothing,
and the block that it gives is a new one. -/
def EmbedAdds (embed : Embed) : Prop :=
  ∀ (base d : Draft) (text : String) (owner : BlockId) (condition : Bool), base.Extends d →
    LeadsTo (fun id e ↦ base.blocks.find? id = none ∧ base.Extends e) base.Extends
      (embed text owner condition) d

/-- A maker of expressions that adds blocks keeps every extension of a draft. -/
theorem EmbedAdds.holds {embed : Embed} (h : EmbedAdds embed) (base : Draft) (line : Nat)
    (read : Remarks.Reader) : (Property.adding base).bond.EmbedHolds line read embed := by
  rintro text owner _ condition - rfl told d _ ⟨rfl, hd⟩
  have hleads := h base d text owner condition hd
  unfold LeadsTo at hleads
  generalize Script.run (embed text owner condition) d = outcome at hleads ⊢
  obtain ⟨error | id, e⟩ := outcome
  · have hdrafts : (Property.adding base).bond.drafts told e e := ⟨rfl, hleads.2 error rfl⟩
    exact .stopped hdrafts
  · exact .done ⟨(hleads.1 id rfl).1, rfl⟩ ⟨rfl, (hleads.1 id rfl).2⟩

/-- Making the blocks of an expression only adds. -/
theorem expression_adds (catalog : Catalog) (target : TargetKind) (line bound : Nat) :
    EmbedAdds (expression catalog target line bound) := by
  intro base d text owner condition hd
  have hkept := (Property.adding_isKept base catalog target).bond
  have hdrafts : (Property.adding base).bond.drafts [] d d := ⟨rfl, hd⟩
  have hreads : (Property.adding base).bond.Reads text := False.elim
  have hsame : (Property.adding base).bond.names.twin owner owner := rfl
  have hends := Bond.expression_holds hkept line bound condition hreads hsame hdrafts
  exact (Property.leadsTo hends).imp (fun _ _ h ↦ ⟨h.1.1, h.2⟩) fun _ ⟨_, h⟩ ↦ h

/-- Filling the slots of a block adds blocks and changes that one. -/
theorem bindSlots_maintains {embed : Embed} (he : EmbedAdds embed) {catalog : Catalog}
    {target : TargetKind} {c : Command} (hc : c ∈ catalog.commands.values)
    (havailable : c.isAvailableOn target = true) {inv : Draft → Prop} (hinv : IsStable inv)
    {block : BlockId} (hfield : ∀ d name field, inv d → inv (d.setField block name field))
    (hset : ∀ spec ∈ c.inputs, ∀ d slot, inv d → inv (d.setInput block spec.name slot)) (line : Nat)
    (args : Arguments) {d : Draft} (hd : inv d) :
    LeadsTo (fun _ e ↦ inv e) inv (bindSlots embed line c args block) d := by
  -- what an input holds is made by additions, and the block changes when it is put in
  have hcontent : ∀ spec ∈ c.inputs, (Property.stable hinv).bond.Holds line
      (Remarks.content (fun _ _ ↦ []) c.name spec (Reading.inputText spec args))
      (Property.stable hinv).bond.Slots
      (slotContent embed line c.name spec block (Reading.inputText spec args))
      (slotContent embed line c.name spec block (Reading.inputText spec args)) := by
    rintro spec hspec told d _ ⟨rfl, hd⟩
    have hkept := (Property.adding_isKept d catalog target).bond
    have hadding : (Property.adding d).bond.drafts told d d := ⟨rfl, .refl (hinv.fresh hd)⟩
    have hreads : (Property.adding d).bond.Reads (Reading.inputText spec args) := False.elim
    have hsame : (Property.adding d).bond.names.twin block block := rfl
    have hends := Bond.slotContent_holds hkept (he.holds d line fun _ _ ↦ []) hc havailable hspec
      hsame hreads hadding
    refine hends.imp (fun _ _ h ↦ h) ?_
    rintro _ e _ ⟨rfl, h⟩
    exact ⟨rfl, hinv.extended hd h⟩
  have hslots : (Property.stable hinv).bond.Holds line
      (Remarks.commandBlock (fun _ _ ↦ []) c args) Eq (bindSlots embed line c args block)
      (bindSlots embed line c args block) := by
    refine Bond.bindSlots_holds ?_ fun spec hspec ↦ Bond.bindInput_holds (hcontent spec hspec) ?_
    · rintro told d _ ⟨rfl, hd⟩
      exact ⟨rfl, hinv.bindFields hfield line c.name args c.fields hd⟩
    · rintro told d _ slot slot' hslot ⟨rfl, hd⟩
      obtain rfl := hslot.1.eq
      exact ⟨rfl, hset spec hspec d slot hd⟩
  have hdrafts : (Property.stable hinv).bond.drafts [] d d := ⟨rfl, hd⟩
  exact (Property.leadsTo (hslots hdrafts)).imp (fun _ _ h ↦ h.2) fun _ ⟨_, h⟩ ↦ h

end Build

end BlockScript

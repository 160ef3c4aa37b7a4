import BlockScript.Proofs.Numbering
import BlockScript.Proofs.Remarks
import BlockScript.Proofs.Renaming

/-!
# Drafts that differ in their counters

Two drafts are `Parallel` when they are the same up to the distance between their counters: what was
drawn at the same distance from the two starting points is a name of the same thing
(`Renaming.shift`). Every operation on drafts keeps them so.
-/

namespace BlockScript

variable {r : Renaming}

/-! ### Shifted counters -/

/-- The identifiers drawn at the same distance from two numbers are those of the same thing; the
tables around the target are the same. -/
def Renaming.shift (m n : Nat) (outer : List SymbolTables) : Renaming where
  twin a b := ∃ label i, label.length = 3 ∧ a = serial label (m + i) ∧ b = serial label (n + i)
  shared s := ∃ kind, kind.isShared = true ∧ ∃ table ∈ outer, ∃ entry ∈ table.get kind,
    s = ⟨entry.id, entry.name⟩

variable {m n : Nat} {outer : List SymbolTables}

/-- Shifting by a fixed distance pairs each identifier with one other. -/
theorem biUnique_shift : Relator.BiUnique (Renaming.shift m n outer).twin := by
  constructor
  · rintro a a' b ⟨label, i, hlabel, rfl, rfl⟩ ⟨label', j, hlabel', rfl, heq⟩
    obtain ⟨rfl, hij⟩ := serial_injective (hlabel.trans hlabel'.symm) heq
    rw [show i = j by omega]
  · rintro a b b' ⟨label, i, hlabel, rfl, rfl⟩ ⟨label', j, hlabel', heq, rfl⟩
    obtain ⟨rfl, hij⟩ := serial_injective (hlabel.trans hlabel'.symm) heq
    rw [show i = j by omega]

/-- The same declaration under another identifier; broadcasts and procedures keep theirs. -/
structure Declaration.Renamed (r : Renaming) (kind : SymbolKind) (x y : Declaration) : Prop where
  name : x.name = y.name
  value : x.value = y.value
  id : match kind with
    | .vars | .lists => r.twin x.id y.id
    | .broadcasts => x.id = broadcastId x.name ∧ y.id = broadcastId y.name
    | .procedures => x.id = x.name ∧ y.id = y.name

/-- Two drafts are the same up to the distance of their counters from `m` and from `n`. -/
structure Draft.Parallel (m n : Nat) (outer : List SymbolTables) (d e : Draft) : Prop where
  blocks : d.blocks.Matches (Renaming.shift m n outer).twin
    (Block.Renamed (Renaming.shift m n outer)) e.blocks
  warnings : d.warnings = e.warnings
  ids : ∃ i, d.ids.drawn = m + i ∧ e.ids.drawn = n + i
  own : ∀ kind, List.Forall₂ (Declaration.Renamed (Renaming.shift m n outer) kind)
    (d.symbols.own.get kind) (e.symbols.own.get kind)
  inherited : d.symbols.inherited = outer ∧ e.symbols.inherited = outer
  extensions : d.extensions = e.extensions
  nextY : d.nextY = e.nextY
  script : Option.Rel (Renaming.shift m n outer).twin d.script e.script
  frames : List.Forall₂ (Frame.Renamed (Renaming.shift m n outer)) d.frames e.frames
  commandCount : d.commandCount = e.commandCount

/-! ### Symbols -/

/-- The symbol that a name refers to is the same under another identifier. -/
def Symbol.Renamed (r : Renaming) (s t : Symbol) : Prop :=
  Field.Renamed r ⟨s.name, some s.id⟩ ⟨t.name, some t.id⟩

/-- Symbols that are the same have the same name. -/
theorem Symbol.Renamed.name {s t : Symbol} (h : s.Renamed r t) : s.name = t.name := by
  unfold Symbol.Renamed at h
  generalize hs : (⟨s.name, some s.id⟩ : Field) = f at h
  generalize ht : (⟨t.name, some t.id⟩ : Field) = g at h
  cases h <;> simp_all

/-- Entries that are renamed name renamed symbols. -/
theorem Declaration.Renamed.symbol {kind : SymbolKind} {x y : Declaration}
    (h : x.Renamed r kind y) : Symbol.Renamed r ⟨x.id, x.name⟩ ⟨y.id, y.name⟩ := by
  obtain ⟨hname, -, hid⟩ := h
  obtain ⟨idx, name, value⟩ := x
  obtain ⟨idy, name', value'⟩ := y
  obtain rfl : name = name' := hname
  cases kind with
  | vars => exact .own name hid
  | lists => exact .own name hid
  | broadcasts =>
    obtain ⟨hx, hy⟩ : idx = broadcastId name ∧ idy = broadcastId name := hid
    rw [Symbol.Renamed, hx, hy]
    exact .broadcast name
  | procedures =>
    obtain ⟨hx, hy⟩ : idx = name ∧ idy = name := hid
    rw [Symbol.Renamed, hx, hy]
    exact .procedure name

/-- Tables that differ in their identifiers alone give a name the same entry. -/
theorem find?_of_forall₂ {kind : SymbolKind} {l l' : List Declaration}
    (h : List.Forall₂ (Declaration.Renamed r kind) l l') (name : String) :
    Option.Rel (Declaration.Renamed r kind)
      (l.find? fun entry ↦ Text.lower entry.name == Text.lower name)
      (l'.find? fun entry ↦ Text.lower entry.name == Text.lower name) := by
  induction h with
  | nil => exact .none
  | cons hentry _ ih =>
    rw [List.find?_cons, List.find?_cons, ← hentry.name]
    split
    · exact .some hentry
    · exact ih

namespace Draft.Parallel

variable {d e : Draft}

/-- Parallel drafts find renamed symbols under a name, or both find none. -/
theorem lookup? (h : d.Parallel m n outer e) (kind : SymbolKind) (name : String) :
    Option.Rel (Symbol.Renamed (Renaming.shift m n outer)) (d.symbols.lookup? kind name)
      (e.symbols.lookup? kind name) := by
  have hown := find?_of_forall₂ (h.own kind) name
  -- behind its own table a target sees the same tables in both drafts
  have houter : ∀ tables : List SymbolTables, kind.isShared = true → tables ⊆ outer →
      Option.Rel (Symbol.Renamed (Renaming.shift m n outer))
        ((tables.findSome? (·.find? kind name)).map fun entry ↦ ⟨entry.id, entry.name⟩)
        ((tables.findSome? (·.find? kind name)).map fun entry ↦ ⟨entry.id, entry.name⟩) := by
    intro tables hshared hsub
    cases hfind : tables.findSome? (·.find? kind name) with
    | none => exact .none
    | some entry =>
      obtain ⟨table, htable, hentry⟩ := List.exists_of_findSome?_eq_some hfind
      exact .some (.shared ⟨kind, hshared, table, hsub htable, entry,
        List.mem_of_find?_eq_some hentry, rfl⟩)
  unfold Symbols.lookup?
  rw [h.inherited.1, h.inherited.2]
  dsimp only
  by_cases hshared : kind.isShared = true
  · rw [if_pos hshared, if_pos hshared, List.findSome?_cons, List.findSome?_cons]
    simp only [SymbolTables.find?]
    rcases optionRel_cases hown with ⟨hx, hy⟩ | ⟨entry, entry', hx, hy, hentry⟩
    · rw [hx, hy]
      exact houter outer hshared (List.Subset.refl _)
    · rw [hx, hy]
      exact .some hentry.symbol
  · rw [if_neg hshared, if_neg hshared, List.findSome?_cons, List.findSome?_cons]
    simp only [SymbolTables.find?]
    rcases optionRel_cases hown with ⟨hx, hy⟩ | ⟨entry, entry', hx, hy, hentry⟩
    · rw [hx, hy]
      exact .none
    · rw [hx, hy]
      exact .some hentry.symbol

/-- A name is new to both drafts or to none; if it is new, both declare it. -/
theorem intern (h : d.Parallel m n outer e) (kind : SymbolKind) (name initial : String) :
    Symbol.Renamed (Renaming.shift m n outer) (d.intern kind name initial).1
        (e.intern kind name initial).1 ∧
      (d.intern kind name initial).2.Parallel m n outer (e.intern kind name initial).2 := by
  unfold Draft.intern Symbols.intern
  rcases optionRel_cases (h.lookup? kind name) with ⟨hx, hy⟩ | ⟨known, known', hx, hy, hknown⟩
  · rw [hx, hy]
    obtain ⟨i, hd, he⟩ := h.ids
    -- the new entries are those of one draw, or have the same identifier
    have hentry : Declaration.Renamed (Renaming.shift m n outer) kind
        ⟨(Symbols.newId kind name d.ids).1, name, Text.orElse initial "0"⟩
        ⟨(Symbols.newId kind name e.ids).1, name, Text.orElse initial "0"⟩ := by
      refine ⟨rfl, rfl, ?_⟩
      cases kind with
      | vars => exact ⟨"var", i + 1, by decide, by rw [← Nat.add_assoc, ← hd]; rfl,
          by rw [← Nat.add_assoc, ← he]; rfl⟩
      | lists => exact ⟨"lis", i + 1, by decide, by rw [← Nat.add_assoc, ← hd]; rfl,
          by rw [← Nat.add_assoc, ← he]; rfl⟩
      | broadcasts => exact ⟨rfl, rfl⟩
      | procedures => exact ⟨rfl, rfl⟩
    have hids : ∃ i, (Symbols.newId kind name d.ids).2.drawn = m + i ∧
        (Symbols.newId kind name e.ids).2.drawn = n + i := by
      cases kind with
      | vars => exact ⟨i + 1, congrArg (· + 1) hd, congrArg (· + 1) he⟩
      | lists => exact ⟨i + 1, congrArg (· + 1) hd, congrArg (· + 1) he⟩
      | broadcasts => exact ⟨i, hd, he⟩
      | procedures => exact ⟨i, hd, he⟩
    refine ⟨hentry.symbol, { h with ids := hids, own := fun other ↦ ?_ }⟩
    show List.Forall₂ _ ((d.symbols.own.append _ kind).get other)
      ((e.symbols.own.append _ kind).get other)
    rw [SymbolTables.get_append, SymbolTables.get_append]
    split
    · next hkind =>
      subst hkind
      exact List.rel_append (h.own kind) (.cons hentry .nil)
    · exact h.own other
  · rw [hx, hy]
    exact ⟨hknown, { h with }⟩

/-- The fields for a text are renamed, and the drafts stay parallel. -/
theorem fieldFor (h : d.Parallel m n outer e) (symbols : Option SymbolKind)
    (text fallback : String) :
    Field.Renamed (Renaming.shift m n outer) (d.fieldFor symbols text fallback).1
        (e.fieldFor symbols text fallback).1 ∧
      (d.fieldFor symbols text fallback).2.Parallel m n outer
        (e.fieldFor symbols text fallback).2 := by
  cases symbols with
  | none => exact ⟨.plain text, h⟩
  | some kind => exact h.intern kind (Text.nameOr text fallback) ""

/-! ### Blocks -/

/-- New blocks get shifted identifiers, and the drafts stay parallel. -/
theorem create (h : d.Parallel m n outer e) (opcode : String) {role role' : Role}
    (hrole : role.Renamed (Renaming.shift m n outer) role') :
    (Renaming.shift m n outer).twin (d.create opcode role).1 (e.create opcode role').1 ∧
      (d.create opcode role).2.Parallel m n outer (e.create opcode role').2 := by
  obtain ⟨i, hd, he⟩ := h.ids
  have hid : (Renaming.shift m n outer).twin (d.create opcode role).1 (e.create opcode role').1 :=
    ⟨"blk", i + 1, by decide, by rw [← Nat.add_assoc, ← hd]; rfl, by
      rw [← Nat.add_assoc, ← he]; rfl⟩
  have hblock : Block.Renamed (Renaming.shift m n outer) (d.newBlock opcode role)
      (e.newBlock opcode role') := by
    cases hrole with
    | entry =>
      exact ⟨rfl, .none, .none, Dict.matches_empty, Dict.matches_empty, rfl,
        congrArg (fun y ↦ some (⟨scriptX, y⟩ : Place)) h.nextY, rfl⟩
    | statement => exact ⟨rfl, .none, .none, Dict.matches_empty, Dict.matches_empty, rfl, rfl, rfl⟩
    | value howner =>
      exact ⟨rfl, .none, .some howner, Dict.matches_empty, Dict.matches_empty, rfl, rfl, rfl⟩
    | shadow howner =>
      exact ⟨rfl, .none, .some howner, Dict.matches_empty, Dict.matches_empty, rfl, rfl, rfl⟩
  have hheight : (d.create opcode role).2.nextY = (e.create opcode role').2.nextY := by
    show (if role = .entry then d.nextY + scriptStep else d.nextY) =
      if role' = .entry then e.nextY + scriptStep else e.nextY
    rw [h.nextY]
    cases hrole <;> rfl
  exact ⟨hid, { h with
    blocks := h.blocks.insert biUnique_shift hid hblock
    ids := ⟨i + 1, congrArg (· + 1) hd, congrArg (· + 1) he⟩
    nextY := hheight }⟩

/-- The same change on both sides keeps drafts parallel. -/
theorem update (h : d.Parallel m n outer e) {a b : BlockId}
    (hid : (Renaming.shift m n outer).twin a b) {f g : Block → Block}
    (hfg : ∀ x y, Block.Renamed (Renaming.shift m n outer) x y →
      Block.Renamed (Renaming.shift m n outer) (f x) (g y)) :
    (d.update a f).Parallel m n outer (e.update b g) :=
  { h with blocks := h.blocks.modify biUnique_shift hid hfg }

variable {a b : BlockId} (hid : (Renaming.shift m n outer).twin a b)

include hid

/-- Renamed slots put under the same name keep drafts parallel. -/
theorem setInput (h : d.Parallel m n outer e) (name : String) {slot slot' : Slot}
    (hslot : slot.Renamed (Renaming.shift m n outer) slot') :
    (d.setInput a name slot).Parallel m n outer (e.setInput b name slot') :=
  h.update hid fun _ _ hb ↦ { hb with inputs := hb.inputs.insert biUnique_eq rfl hslot }

/-- Renamed fields put under the same name keep drafts parallel. -/
theorem setField (h : d.Parallel m n outer e) (name : String) {field field' : Field}
    (hfield : field.Renamed (Renaming.shift m n outer) field') :
    (d.setField a name field).Parallel m n outer (e.setField b name field') :=
  h.update hid fun _ _ hb ↦ { hb with fields := hb.fields.insert biUnique_eq rfl hfield }

/-- A field set from the same text keeps drafts parallel. -/
theorem setText (h : d.Parallel m n outer e) (name : String) (symbols : Option SymbolKind)
    (text fallback : String) :
    (d.setText a name symbols text fallback).Parallel m n outer
      (e.setText b name symbols text fallback) := by
  obtain ⟨hfield, hbound⟩ := h.fieldFor symbols text fallback
  exact hbound.setField hid name hfield

/-- Renamed parents keep drafts parallel. -/
theorem setParent (h : d.Parallel m n outer e) {p q : BlockId}
    (hparent : (Renaming.shift m n outer).twin p q) :
    (d.setParent a p).Parallel m n outer (e.setParent b q) :=
  h.update hid fun _ _ hb ↦ { hb with parent := .some hparent }

/-- The same signature keeps drafts parallel. -/
theorem setProcedure (h : d.Parallel m n outer e) (signature : String) :
    (d.setProcedure a signature).Parallel m n outer (e.setProcedure b signature) :=
  h.update hid fun _ _ hb ↦ { hb with procedure := rfl }

/-- Links between renamed blocks keep drafts parallel. -/
theorem link (h : d.Parallel m n outer e) {p q : BlockId}
    (hfirst : (Renaming.shift m n outer).twin p q) :
    (d.link p a).Parallel m n outer (e.link q b) := by
  have hnext : (d.update p fun b ↦ { b with next := some a }).Parallel m n outer
      (e.update q fun c ↦ { c with next := some b }) :=
    h.update hfirst fun _ _ hb ↦ { hb with next := .some hid }
  exact hnext.setParent hid hfirst

omit hid

/-! ### Remarks and cursors -/

/-- The same remarks keep drafts parallel. -/
theorem tell (h : d.Parallel m n outer e) (line : Nat) (told : List Remark) :
    (d.tell line told).Parallel m n outer (e.tell line told) :=
  { h with warnings := congrArg (· ++ Remarks.warnings line told) h.warnings }

/-- The same extension keeps drafts parallel. -/
theorem useExtension (h : d.Parallel m n outer e) (extension? : Option String) :
    (d.useExtension extension?).Parallel m n outer (e.useExtension extension?) := by
  cases extension? with
  | none => exact h
  | some name => exact { h with extensions := congrArg (·.insert name ()) h.extensions }

/-- Counting a command keeps drafts parallel. -/
theorem countCommand (h : d.Parallel m n outer e) :
    d.countCommand.Parallel m n outer e.countCommand :=
  { h with commandCount := congrArg (· + 1) h.commandCount }

/-- A block is appended to the same chain in both drafts. -/
theorem append (h : d.Parallel m n outer e) (hid : (Renaming.shift m n outer).twin a b) :
    (d.append a).Parallel m n outer (e.append b) := by
  have hframes := h.frames
  cases hdf : d.frames with
  | nil =>
    rw [hdf] at hframes
    have hef := List.forall₂_nil_left_iff.1 hframes
    rcases optionRel_cases h.script with ⟨hd, he⟩ | ⟨last, last', hd, he, hlast⟩
    · rwa [Draft.append_closed hdf hd, Draft.append_closed hef he]
    · have hmoved : Draft.Parallel m n outer { d with script := some a }
          { e with script := some b } := { h with script := .some hid }
      rw [Draft.append_script hdf hd, Draft.append_script hef he]
      exact hmoved.link hid hlast
  | cons f fs =>
    rw [hdf] at hframes
    obtain ⟨g, gs, hframe, houter, hef⟩ := List.forall₂_cons_left_iff.1 hframes
    have hactive := hframe.branches.active
    have hmoved : Draft.Parallel m n outer
        { d with frames := { f with branches := f.branches.extend a } :: fs }
        { e with frames := { g with branches := g.branches.extend b } :: gs } :=
      { h with frames := .cons { hframe with branches := hframe.branches.extend hid } houter }
    rcases optionRel_cases hactive.last with ⟨hf, hg⟩ | ⟨last, last', hf, hg, hlast⟩
    · have hhung := (hmoved.setInput hframe.block f.branches.active.input (.block hid)).setParent
        hid hframe.block
      rwa [Draft.append_hang hdf hf, Draft.append_hang hef hg, ← hactive.input]
    · rw [Draft.append_link hdf hf, Draft.append_link hef hg]
      exact hmoved.link hid hlast

end Draft.Parallel

end BlockScript

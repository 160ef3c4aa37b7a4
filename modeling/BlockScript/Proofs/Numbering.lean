import BlockScript.Proofs.Evolution

/-!
# Identifiers and symbols of a draft

Blocks, variables and lists get their identifiers from one sequence. A list of identifiers is
`Numbered` between two numbers when all of them were drawn in between and none occurs twice; a draw
adds one (`Numbered.draw`), and two lists of which one was drawn after the other can be joined
(`Numbered.append`).

A draft is `Orderly` when its identifiers are numbered, the names it declares differ from those it
sees around it, and its fields name what they should. Every step keeps it so (`Draft.Orderly.step`).
-/

namespace BlockScript

/-! ### Numbered identifiers -/

/-- The identifier drawn as number `n` under a label. -/
def serial (label : String) (n : Nat) : String := label ++ "_" ++ base36 n

/-- The number of an identifier can be read back behind a label of known length. -/
theorem serial_injective {a b : String} {m n : Nat} (hlength : a.length = b.length)
    (h : serial a m = serial b n) : a = b ∧ m = n := by
  have hchars := congrArg String.toList h
  simp only [serial, String.toList_append, List.append_assoc] at hchars
  have hlist : a.toList.length = b.toList.length := by
    rw [String.length_toList, String.length_toList, hlength]
  obtain ⟨hlabel, htail⟩ := List.append_inj hchars hlist
  exact ⟨String.toList_inj.1 hlabel,
    base36_injective (String.toList_inj.1 (List.append_cancel_left htail))⟩

/-- The identifier was drawn after number `first`, up to number `last`. -/
def DrawnBetween (first last : Nat) (id : String) : Prop :=
  ∃ label n, label.length = 3 ∧ first < n ∧ n ≤ last ∧ id = serial label n

/-- All identifiers were drawn between two numbers, and they differ. -/
structure Numbered (first last : Nat) (ids : List String) : Prop where
  /-- The numbers are in order. -/
  le : first ≤ last
  /-- No identifier occurs twice. -/
  nodup : ids.Nodup
  /-- Each of them was drawn. -/
  drawn : ∀ id ∈ ids, DrawnBetween first last id

namespace Numbered

variable {first middle last : Nat} {ids more : List String}

/-- No identifiers were drawn between a number and itself. -/
theorem nil (n : Nat) : Numbered n n [] := ⟨Nat.le_refl n, List.nodup_nil, by simp⟩

/-- The order of identifiers does not matter. -/
theorem perm (h : Numbered first last ids) (hperm : more.Perm ids) : Numbered first last more :=
  ⟨h.le, hperm.nodup_iff.2 h.nodup, fun id hid ↦ h.drawn id (hperm.mem_iff.1 hid)⟩

/-- Identifiers drawn later differ from those drawn before. -/
theorem append (h : Numbered first middle ids) (h' : Numbered middle last more) :
    Numbered first last (ids ++ more) where
  le := Nat.le_trans h.le h'.le
  nodup := by
    refine List.nodup_append.2 ⟨h.nodup, h'.nodup, ?_⟩
    rintro a ha b hb rfl
    obtain ⟨label, m, hlabel, -, hm, hid⟩ := h.drawn a ha
    obtain ⟨label', n, hlabel', hn, -, hid'⟩ := h'.drawn a hb
    obtain ⟨-, rfl⟩ := serial_injective (hlabel.trans hlabel'.symm) (hid.symm.trans hid')
    omega
  drawn id hid := by
    rcases List.mem_append.1 hid with hid | hid
    · obtain ⟨label, n, hlabel, hfirst, hn, rfl⟩ := h.drawn id hid
      exact ⟨label, n, hlabel, hfirst, Nat.le_trans hn h'.le, rfl⟩
    · obtain ⟨label, n, hlabel, hfirst, hn, rfl⟩ := h'.drawn id hid
      exact ⟨label, n, hlabel, Nat.lt_of_le_of_lt h.le hfirst, hn, rfl⟩

/-- One more identifier is drawn. -/
theorem draw (h : Numbered first last ids) (label : String) (hlabel : label.length = 3) :
    Numbered first (last + 1) (ids ++ [serial label (last + 1)]) := by
  refine h.append ⟨Nat.le_succ last, List.nodup_singleton _, fun id hid ↦ ?_⟩
  exact ⟨label, last + 1, hlabel, Nat.lt_succ_self last, Nat.le_refl _, List.mem_singleton.1 hid⟩

end Numbered

/-! ### Symbols in sight -/

namespace Symbols

/-- The declarations of a kind that a target sees: its own, and the ones around it where sprites see
those of the stage. -/
def inSight (s : Symbols) (kind : SymbolKind) : List Declaration :=
  (if kind.isShared then s.own :: s.inherited else [s.own]).flatMap (·.get kind)

/-- What is in sight is declared here, or around the target if it is shared. -/
theorem mem_inSight {s : Symbols} {kind : SymbolKind} {entry : Declaration}
    (h : entry ∈ s.inSight kind) :
    entry ∈ s.own.get kind ∨ kind.isShared = true ∧ ∃ t ∈ s.inherited, entry ∈ t.get kind := by
  obtain ⟨t, ht, hentry⟩ := List.mem_flatMap.1 h
  split at ht
  · next hshared =>
    rcases List.mem_cons.1 ht with rfl | ht
    · exact .inl hentry
    · exact .inr ⟨hshared, t, ht, hentry⟩
  · rw [List.mem_singleton.1 ht] at hentry
    exact .inl hentry

/-- A name that is asked for is in sight already, or it is declared and differs from all names in
sight. -/
theorem intern_cases (s : Symbols) (kind : SymbolKind) (name initial : String) (ids : IdSource) :
    (∃ entry ∈ s.inSight kind, s.intern kind name initial ids = (⟨entry.id, entry.name⟩, s, ids)) ∨
    ∃ entry : Declaration, entry.id = (newId kind name ids).1 ∧ entry.name = name ∧
      (∀ other ∈ s.inSight kind, Text.lower other.name ≠ Text.lower name) ∧
      s.intern kind name initial ids = (⟨entry.id, entry.name⟩,
        { s with own := s.own.append entry kind }, (newId kind name ids).2) := by
  cases hlook : s.lookup? kind name with
  | some known =>
    obtain ⟨entry, hentry, rfl⟩ := Option.map_eq_some_iff.1 hlook
    obtain ⟨t, ht, hfind⟩ := List.exists_of_findSome?_eq_some hentry
    refine .inl ⟨entry, List.mem_flatMap.2 ⟨t, ht, List.mem_of_find?_eq_some hfind⟩, ?_⟩
    simp only [intern, hlook]
  | none =>
    refine .inr ⟨⟨(newId kind name ids).1, name, Text.orElse initial "0"⟩, rfl, rfl, ?_, ?_⟩
    · intro other hother
      obtain ⟨t, ht, hmem⟩ := List.mem_flatMap.1 hother
      exact lookup?_eq_none_iff.1 hlook t ht other hmem
    · simp only [intern, hlook]

/-- After a declaration one more entry is in sight of its kind. -/
theorem mem_inSight_append {s : Symbols} {kind other : SymbolKind} {entry e : Declaration} :
    e ∈ inSight { s with own := s.own.append entry kind } other ↔
      e ∈ s.inSight other ∨ kind = other ∧ e = entry := by
  have hown : e ∈ (s.own.append entry kind).get other ↔
      e ∈ s.own.get other ∨ kind = other ∧ e = entry := by
    rw [SymbolTables.get_append]
    split <;> simp [*]
  unfold inSight
  split
  · simp only [List.flatMap_cons, List.mem_append, hown]
    tauto
  · simp only [List.flatMap_cons, List.flatMap_nil, List.append_nil, hown]

/-- The identifiers of the variables and lists that a target declares. -/
def serials (s : Symbols) : List String :=
  s.own.vars.map Declaration.id ++ s.own.lists.map Declaration.id

/-- The tables of a target fit those around it. -/
structure Settled (s : Symbols) : Prop where
  /-- A name that is in sight around the target is not declared again. -/
  apart : ∀ kind, kind.isShared = true → ∀ entry ∈ s.own.get kind, ∀ t ∈ s.inherited,
    ∀ other ∈ t.get kind, Text.lower other.name ≠ Text.lower entry.name
  /-- Broadcasts are identified by their names. -/
  broadcasts : ∀ entry ∈ s.own.broadcasts, entry.id = broadcastId entry.name

/-- A target without declarations fits the tables around it. -/
theorem settled_empty (inherited : List SymbolTables) : Settled ⟨{}, inherited⟩ where
  apart kind _ entry hentry := by cases kind <;> cases hentry
  broadcasts _ hentry := by cases hentry

/-- Asking for a name keeps tables that fit those around them. -/
theorem Settled.intern {s : Symbols} (h : s.Settled) (kind : SymbolKind) (name initial : String)
    (ids : IdSource) : (s.intern kind name initial ids).2.1.Settled := by
  rcases s.intern_cases kind name initial ids with
    ⟨entry, -, heq⟩ | ⟨entry, hid, hname, hnew, heq⟩
  · rwa [heq]
  · rw [heq]
    refine ⟨fun other hshared e he t ht o ho ↦ ?_, fun e he ↦ ?_⟩
    · rw [SymbolTables.get_append] at he
      split at he
      · next hkind =>
        subst hkind
        rcases List.mem_append.1 he with he | he
        · exact h.apart kind hshared e he t ht o ho
        · rw [List.mem_singleton.1 he, hname]
          -- the name was not in sight, so no table around the target has it
          refine hnew o (List.mem_flatMap.2 ⟨t, ?_, ho⟩)
          rw [if_pos hshared]
          exact List.mem_cons_of_mem _ ht
      · exact h.apart other hshared e he t ht o ho
    · have he' : e ∈ (s.own.append entry kind).get .broadcasts := he
      rw [SymbolTables.get_append] at he'
      split at he'
      · next hkind =>
        subst hkind
        rcases List.mem_append.1 he' with he' | he'
        · exact h.broadcasts e he'
        · rw [List.mem_singleton.1 he', hid, hname]
          rfl
      · exact h.broadcasts e he'

/-- The identifiers after a declaration: one more of them if the declaration takes one from the
sequence. -/
theorem numbered_intern {s : Symbols} {first : Nat} {blocks : List String} {ids : IdSource}
    (h : Numbered first ids.drawn (blocks ++ s.serials)) (kind : SymbolKind)
    (name initial : String) :
    Numbered first (s.intern kind name initial ids).2.2.drawn
      (blocks ++ (s.intern kind name initial ids).2.1.serials) := by
  rcases s.intern_cases kind name initial ids with ⟨entry, -, heq⟩ | ⟨entry, hid, -, -, heq⟩
  · rwa [heq]
  · rw [heq]
    cases kind with
    | vars =>
      refine (h.draw "var" (by decide)).perm ?_
      simp only [serials, SymbolTables.append, List.map_append, List.map_cons, List.map_nil, hid,
        List.append_assoc]
      exact ((List.perm_append_comm).append_left _).append_left _
    | lists =>
      refine (h.draw "lis" (by decide)).perm ?_
      simp only [serials, SymbolTables.append, List.map_append, List.map_cons, List.map_nil, hid,
        List.append_assoc]
      exact List.Perm.refl _
    | broadcasts => exact h
    | procedures => exact h

end Symbols

/-! ### Fields -/

/-- The field holds the name and the identifier of a declaration. -/
def Field.Names (field : Field) (entry : Declaration) : Prop :=
  field = ⟨entry.name, some entry.id⟩

/-- The field names a declaration in sight, if it is one that names symbols. -/
def Field.Resolves (field : Field) (symbols : Symbols) (kind? : Option SymbolKind) : Prop :=
  ∀ kind ∈ kind?, ∃ entry ∈ symbols.inSight kind, field.Names entry

namespace Draft

/-- Every field of a block is one that the catalog describes, and names a declaration in sight if it
should. A conditional with two branches may have got its fields while it had one. -/
def Bound (catalog : Catalog) (d : Draft) : Prop :=
  ∀ id b, d.blocks.find? id = some b → ∀ name field, b.fields.find? name = some field →
    ∃ binding ∈ catalog.bindings, (binding.opcode = b.opcode ∨ b.opcode = Opcode.ifElse) ∧
      binding.field = name ∧ field.Resolves d.symbols binding.symbols

variable {catalog : Catalog} {target : TargetKind} {d e : Draft}

/-- What is in sight stays in sight when a name is asked for. -/
theorem inSight_subset_intern (d : Draft) (kind other : SymbolKind) (name initial : String) :
    d.symbols.inSight other ⊆ (d.intern kind name initial).2.symbols.inSight other := by
  intro entry hentry
  show entry ∈ (d.symbols.intern kind name initial d.ids).2.1.inSight other
  rcases d.symbols.intern_cases kind name initial d.ids with
    ⟨_, -, heq⟩ | ⟨_, -, -, -, heq⟩ <;> rw [heq]
  · exact hentry
  · exact Symbols.mem_inSight_append.2 (.inl hentry)

/-- The field for a text names a declaration in sight. -/
theorem resolves_fieldFor (d : Draft) (symbols : Option SymbolKind) (text fallback : String) :
    (d.fieldFor symbols text fallback).1.Resolves (d.fieldFor symbols text fallback).2.symbols
      symbols := by
  rintro kind hkind
  obtain rfl := Option.mem_def.1 hkind
  simp only [fieldFor, intern, Field.Names]
  rcases d.symbols.intern_cases kind (Text.nameOr text fallback) "" d.ids with
    ⟨entry, hentry, heq⟩ | ⟨entry, -, -, -, heq⟩ <;> rw [heq]
  · exact ⟨entry, hentry, rfl⟩
  · exact ⟨entry, Symbols.mem_inSight_append.2 (.inr ⟨rfl, rfl⟩), rfl⟩

namespace Bound

/-- Fields stay described while the blocks stay and nothing goes out of sight. -/
theorem of_blocks_eq (h : d.Bound catalog) (heq : e.blocks = d.blocks)
    (hsight : ∀ kind, d.symbols.inSight kind ⊆ e.symbols.inSight kind) : e.Bound catalog := by
  intro id b hb name field hfield
  rw [heq] at hb
  obtain ⟨binding, hmem, hop, hname, hresolves⟩ := h id b hb name field hfield
  refine ⟨binding, hmem, hop, hname, fun kind hkind ↦ ?_⟩
  obtain ⟨entry, hentry, hnames⟩ := hresolves kind hkind
  exact ⟨entry, hsight kind hentry, hnames⟩

/-- A new block has no fields that would have to be described. -/
theorem create (h : d.Bound catalog) (opcode : String) (role : Role) :
    (d.create opcode role).2.Bound catalog := by
  intro id b hb name field hfield
  rw [find?_create] at hb
  split at hb
  · obtain rfl := Option.some.inj hb
    have hempty : (d.newBlock opcode role).fields = ∅ := by cases role <;> rfl
    rw [hempty] at hfield
    cases hfield
  · exact h id b hb name field hfield

/-- A block may be changed if its own fields stay described. -/
theorem update (h : d.Bound catalog) (id : BlockId) {f : Block → Block}
    (hf : ∀ b, d.blocks.find? id = some b →
      ∀ name field, (f b).fields.find? name = some field →
        ∃ binding ∈ catalog.bindings,
          (binding.opcode = (f b).opcode ∨ (f b).opcode = Opcode.ifElse) ∧
          binding.field = name ∧ field.Resolves d.symbols binding.symbols) :
    (d.update id f).Bound catalog := by
  intro other b hb
  change (d.blocks.modify id f).find? other = some b at hb
  rw [Dict.find?_modify] at hb
  split at hb
  · next heq =>
    subst heq
    obtain ⟨old, hold, rfl⟩ := Option.map_eq_some_iff.1 hb
    exact hf old hold
  · exact h other b hb

/-- A field that the catalog describes may be set. -/
theorem bind (h : d.Bound catalog) {id : BlockId} {binding : Binding}
    (hid : d.Has id binding.opcode) (hmem : binding ∈ catalog.bindings) {field : Field}
    (hfield : field.Resolves d.symbols binding.symbols) :
    (d.setField id binding.field field).Bound catalog := by
  refine h.update id fun b hb name other hother ↦ ?_
  obtain ⟨b', hb', hop⟩ := hid
  obtain rfl := Option.some.inj (hb.symm.trans hb')
  change (b.fields.insert binding.field field).find? name = some other at hother
  rw [Dict.find?_insert] at hother
  split at hother
  · next heq =>
    obtain rfl := Option.some.inj hother
    exact ⟨binding, hmem, .inl hop.symm, heq.symm, hfield⟩
  · exact h id b hb name other hother

end Bound

/-! ### Orderly drafts -/

/-- The identifiers of the blocks, variables and lists of a draft. -/
def serials (d : Draft) : List String := d.blocks.keys ++ d.symbols.serials

/-- The identifiers of the draft were drawn after number `first`, its tables fit those around it,
and its fields name what they should. -/
structure Orderly (catalog : Catalog) (first : Nat) (outer : List SymbolTables) (d : Draft) :
    Prop where
  /-- The identifiers. -/
  numbered : Numbered first d.ids.drawn d.serials
  /-- The tables around it stay what they are. -/
  inherited : d.symbols.inherited = outer
  /-- Its own tables. -/
  settled : d.symbols.Settled
  /-- Its fields. -/
  bound : d.Bound catalog

/-- A draft without blocks and names is orderly. -/
theorem orderly_start (catalog : Catalog) (ids : IdSource) (outer : List SymbolTables) :
    Orderly catalog ids.drawn outer { ids, symbols := ⟨{}, outer⟩ } where
  numbered := .nil _
  inherited := rfl
  settled := Symbols.settled_empty outer
  bound _ _ hb := by cases hb

namespace Orderly

variable {first : Nat} {outer : List SymbolTables}

/-- A new block keeps a draft orderly. -/
theorem create (h : d.Orderly catalog first outer) (opcode : String) (role : Role) :
    (d.create opcode role).2.Orderly catalog first outer where
  numbered := by
    have hdraw := h.numbered.draw "blk" (by decide)
    have hnew : serial "blk" (d.ids.drawn + 1) ∉ d.blocks.keys := fun hmem ↦
      (List.nodup_append.1 hdraw.nodup).2.2 _ (List.mem_append_left _ hmem) _
        (List.mem_singleton_self _) rfl
    refine hdraw.perm (((Dict.keys_insert_perm hnew _).append_right _).trans ?_)
    exact (List.perm_append_singleton _ _).symm
  inherited := h.inherited
  settled := h.settled
  bound := h.bound.create opcode role

/-- A change of a block keeps a draft orderly if its fields stay described. -/
theorem update (h : d.Orderly catalog first outer) (id : BlockId) (f : Block → Block)
    (hbound : (d.update id f).Bound catalog) : (d.update id f).Orderly catalog first outer where
  numbered := by
    show Numbered first d.ids.drawn ((d.blocks.modify id f).keys ++ d.symbols.serials)
    rw [Dict.keys_modify]
    exact h.numbered
  inherited := h.inherited
  settled := h.settled
  bound := hbound

/-- Asking for a name keeps a draft orderly. -/
theorem intern (h : d.Orderly catalog first outer) (kind : SymbolKind) (name initial : String) :
    (d.intern kind name initial).2.Orderly catalog first outer where
  numbered := Symbols.numbered_intern h.numbered kind name initial
  inherited := (d.symbols.inherited_intern kind name initial d.ids).trans h.inherited
  settled := h.settled.intern kind name initial d.ids
  bound := h.bound.of_blocks_eq rfl fun other ↦ d.inSight_subset_intern kind other name initial

/-- Asking for the field of a text keeps a draft orderly. -/
theorem fieldFor (h : d.Orderly catalog first outer) (symbols : Option SymbolKind)
    (text fallback : String) :
    (d.fieldFor symbols text fallback).2.Orderly catalog first outer := by
  cases symbols with
  | none => exact h
  | some kind => exact h.intern kind _ _

/-- A step keeps a draft orderly. -/
theorem step (hstep : Step catalog target d e) (h : d.Orderly catalog first outer) :
    e.Orderly catalog first outer := by
  cases hstep with
  | create role hop => exact h.create _ role
  | update id f hf =>
    refine h.update id f (h.bound.update id fun b hb ↦ ?_)
    -- the change keeps the operation code and the fields of the block
    rw [(hf b).1, (hf b).2]
    exact h.bound id b hb
  | branch id =>
    refine h.update id _ (h.bound.update id fun b hb name field hfield ↦ ?_)
    obtain ⟨binding, hmem, -, hname, hresolves⟩ := h.bound id b hb name field hfield
    exact ⟨binding, hmem, .inr rfl, hname, hresolves⟩
  | intern kind name initial => exact h.intern kind name initial
  | @bind id binding hid hb text fallback =>
    have hfield := h.fieldFor binding.symbols text fallback
    refine hfield.update _ _ ?_
    exact hfield.bound.bind (hid.of_blocks_eq (d.blocks_fieldFor _ text fallback)) hb
      (d.resolves_fieldFor _ text fallback)
  | move blocks ids symbols =>
    refine ⟨?_, ?_, ?_, h.bound.of_blocks_eq blocks fun kind ↦ ?_⟩
    · rw [serials, blocks, ids, symbols]
      exact h.numbered
    · rw [symbols]
      exact h.inherited
    · rw [symbols]
      exact h.settled
    · rw [symbols]
      exact List.Subset.refl _

end Orderly

end Draft

end BlockScript

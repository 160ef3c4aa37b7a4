import Mathlib.Data.List.Pairwise
import Mathlib.Logic.Relation
import BlockScript.Proofs.Dictionary
import BlockScript.Proofs.Numbering

/-!
# The first declaration of a name counts for ever

Symbols are reached from empty tables by asking for names, and by going into a target that inherits
all that is in sight (`Symbols.Reached`). On this way no table gets two names with the same
lower-case form, and neither do the tables that are in sight together (`Symbols.HasDistinctNames`).
Everything else about symbols rests on that: the declaration a name refers to is the only one in
sight under its lower-case form, so it does not matter in which table or in which order it is looked
for (`Symbols.lookup?_eq`), and a name that is asked for again, in any spelling, gives the same
symbol (`Symbols.isPersistent_of_reached`).

Since names differ, a table can be kept with an index from lower-case names to positions
(`IndexedTable`). The index stays in step with the entries, and looking a name up through it never
leads outside the table or to another name (`IndexedTable.InStep`). Symbols with an index for each
table (`IndexedSymbols`) go along with plain ones, request by request, and give the same answers
(`IndexedSymbols.Carries.run`).
-/

namespace BlockScript

/-! ### Distinct names -/

/-- No two declarations have the same name in lower case. -/
def Declaration.AreDistinct (entries : List Declaration) : Prop :=
  entries.Pairwise fun a b ↦ Text.lower a.name ≠ Text.lower b.name

namespace Declaration.AreDistinct

variable {entries : List Declaration} {entry : Declaration} {name : String}

/-- The declaration of a name is the one that is found under it. -/
theorem find?_eq_some (h : AreDistinct entries) (hmem : entry ∈ entries)
    (hname : Text.lower entry.name = Text.lower name) :
    entries.find? (fun e ↦ Text.lower e.name == Text.lower name) = some entry := by
  have hsymm : Std.Symm fun a b : Declaration ↦ Text.lower a.name ≠ Text.lower b.name :=
    ⟨fun _ _ hne ↦ hne.symm⟩
  rcases hfind : entries.find? (fun e ↦ Text.lower e.name == Text.lower name) with - | found
  · exact absurd hname (by simpa using List.find?_eq_none.1 hfind entry hmem)
  · have hfound : Text.lower found.name = Text.lower name := by
      simpa using List.find?_some hfind
    by_contra hne
    have hdiffer : found ≠ entry := fun heq ↦ hne (hfind.trans (congrArg some heq))
    exact h.forall (List.mem_of_find?_eq_some hfind) hmem hdiffer (hfound.trans hname.symm)

theorem append_singleton (h : AreDistinct entries)
    (hnew : ∀ e ∈ entries, Text.lower e.name ≠ Text.lower entry.name) :
    AreDistinct (entries ++ [entry]) := by
  refine List.pairwise_append.2 ⟨h, List.pairwise_singleton _ _, fun a ha b hb ↦ ?_⟩
  rw [List.mem_singleton.1 hb]
  exact hnew a ha

/-- The order of declarations does not matter. -/
theorem perm {others : List Declaration} (h : AreDistinct entries) (hperm : entries.Perm others) :
    AreDistinct others :=
  List.Pairwise.perm h hperm fun hne ↦ hne.symm

end Declaration.AreDistinct

/-! ### Tables with an index -/

/-- A table in which a name is found through an index from lower-case names to positions. -/
structure IndexedTable where
  /-- The entries in the order of declaration. -/
  entries : List Declaration := []
  /-- The position of the entry of each name. -/
  index : Dict Nat := ∅

namespace IndexedTable

/-- The entry at the position that the index gives for a name. -/
def find? (t : IndexedTable) (name : String) : Option Declaration :=
  (t.index.find? (Text.lower name)).bind fun position ↦ t.entries[position]?

/-- Puts an entry at the end and its position into the index. -/
def insert (t : IndexedTable) (entry : Declaration) : IndexedTable where
  entries := t.entries ++ [entry]
  index := t.index.insert (Text.lower entry.name) t.entries.length

/-- The table with these entries: a table only grows by insertion, so the order of its entries says
how it came about. -/
def ofEntries (entries : List Declaration) : IndexedTable :=
  entries.foldl insert {}

/-- The index says where each entry is, and nothing else. -/
structure InStep (t : IndexedTable) : Prop where
  /-- No two entries have the same name. -/
  distinct : Declaration.AreDistinct t.entries
  /-- A position in the index is that of an entry, which has the name it stands under. -/
  points : ∀ key position, t.index.find? key = some position →
    ∃ entry, t.entries[position]? = some entry ∧ Text.lower entry.name = key
  /-- Every entry stands in the index. -/
  covers : ∀ (position : Nat) (entry : Declaration), t.entries[position]? = some entry →
    t.index.find? (Text.lower entry.name) = some position

@[simp]
theorem ofEntries_append_singleton (entries : List Declaration) (entry : Declaration) :
    ofEntries (entries ++ [entry]) = (ofEntries entries).insert entry := by
  simp [ofEntries]

@[simp]
theorem entries_ofEntries (entries : List Declaration) : (ofEntries entries).entries = entries := by
  induction entries using List.reverseRecOn with
  | nil => rfl
  | append_singleton entries entry ih =>
    rw [ofEntries_append_singleton]
    show (ofEntries entries).entries ++ [entry] = entries ++ [entry]
    rw [ih]

namespace InStep

variable {t : IndexedTable} {entry : Declaration}

theorem insert (h : t.InStep)
    (hnew : ∀ e ∈ t.entries, Text.lower e.name ≠ Text.lower entry.name) :
    (t.insert entry).InStep where
  distinct := h.distinct.append_singleton hnew
  points key position hfind := by
    show ∃ e, (t.entries ++ [entry])[position]? = some e ∧ Text.lower e.name = key
    have hinsert : (t.index.insert (Text.lower entry.name) t.entries.length).find? key =
        some position := hfind
    rw [Dict.find?_insert] at hinsert
    split at hinsert
    · next hkey =>
      obtain rfl := Option.some.inj hinsert
      exact ⟨entry, by simp, hkey.symm⟩
    · obtain ⟨e, he, hname⟩ := h.points key position hinsert
      have hlt : position < t.entries.length := (List.getElem?_eq_some_iff.1 he).1
      exact ⟨e, by rw [List.getElem?_append_left hlt, he], hname⟩
  covers position e he := by
    show (t.index.insert (Text.lower entry.name) t.entries.length).find? (Text.lower e.name) =
      some position
    have hget : (t.entries ++ [entry])[position]? = some e := he
    rw [Dict.find?_insert]
    by_cases hlt : position < t.entries.length
    · rw [List.getElem?_append_left hlt] at hget
      rw [if_neg (hnew e (List.mem_of_getElem? hget)), h.covers position e hget]
    · -- the last position is the only one left
      have hlength : position < (t.entries ++ [entry]).length :=
        (List.getElem?_eq_some_iff.1 hget).1
      obtain rfl : position = t.entries.length := by
        rw [List.length_append, List.length_singleton] at hlength
        omega
      obtain rfl : entry = e := by simpa using hget
      rw [if_pos rfl]

/-- Entries with distinct names can be inserted one after the other. -/
theorem ofEntries {entries : List Declaration} (h : Declaration.AreDistinct entries) :
    (ofEntries entries).InStep := by
  induction entries using List.reverseRecOn with
  | nil => exact ⟨List.Pairwise.nil, nofun, fun _ _ hget ↦ by simp [IndexedTable.ofEntries] at hget⟩
  | append_singleton entries entry ih =>
    obtain ⟨hentries, -, hnew⟩ := List.pairwise_append.1 h
    rw [ofEntries_append_singleton]
    refine (ih hentries).insert fun e he ↦ ?_
    rw [entries_ofEntries] at he
    exact hnew e he entry (List.mem_singleton.2 rfl)

/-- Through the index a name is found exactly as by going through the entries. -/
theorem find?_eq (h : t.InStep) (name : String) :
    t.find? name = t.entries.find? fun e ↦ Text.lower e.name == Text.lower name := by
  rcases hindex : t.index.find? (Text.lower name) with - | position
  · rw [find?, hindex, Option.bind_none, eq_comm, List.find?_eq_none]
    intro e he hname
    obtain ⟨position, hposition⟩ := List.mem_iff_getElem?.1 he
    rw [← beq_iff_eq.1 hname, h.covers position e hposition] at hindex
    cases hindex
  · obtain ⟨e, he, hname⟩ := h.points _ _ hindex
    rw [find?, hindex, Option.bind_some, he,
      h.distinct.find?_eq_some (List.mem_of_getElem? he) hname]

end InStep

end IndexedTable

/-! ### Symbols with indices -/

/-- Something that is asked of symbols. -/
inductive SymbolRequest where
  /-- A target inherits what is in sight. -/
  | within
  /-- A name is asked for, with an initial value. -/
  | intern (kind : SymbolKind) (name initial : String)
deriving DecidableEq, Repr

/-- The answers to some requests, with what has become of the symbols. -/
def Symbols.run : List SymbolRequest → Symbols → IdSource → List Symbol × Symbols × IdSource
  | [], s, ids => ([], s, ids)
  | .within :: requests, s, ids => run requests s.within ids
  | .intern kind name initial :: requests, s, ids =>
    let (symbol, s, ids) := s.intern kind name initial ids
    let (symbols, s, ids) := run requests s ids
    (symbol :: symbols, s, ids)

/-- The symbols a target declares, with the tables it inherits, nearest first; each table has an
index. -/
structure IndexedSymbols where
  /-- The tables of the target itself. -/
  own : SymbolKind → IndexedTable := fun _ ↦ {}
  /-- The tables of the targets around it. -/
  inherited : List (SymbolKind → IndexedTable) := []

namespace IndexedSymbols

/-- The symbols of a target that inherits all that `outer` can see. -/
def within (outer : IndexedSymbols) : IndexedSymbols :=
  ⟨fun _ ↦ {}, outer.own :: outer.inherited⟩

/-- The symbol a name refers to, found through the indices. -/
def lookup? (i : IndexedSymbols) (kind : SymbolKind) (name : String) : Option Symbol :=
  let visible := if kind.isShared then i.own :: i.inherited else [i.own]
  (visible.findSome? fun tables ↦ (tables kind).find? name).map fun entry ↦ ⟨entry.id, entry.name⟩

/-- The symbol a name refers to; a new name gets an entry and a place in the index. -/
def intern (i : IndexedSymbols) (kind : SymbolKind) (name initial : String) (ids : IdSource) :
    Symbol × IndexedSymbols × IdSource :=
  match i.lookup? kind name with
  | some known => (known, i, ids)
  | none =>
    let (id, ids) := Symbols.newId kind name ids
    let entry : Declaration := ⟨id, name, Text.orElse initial "0"⟩
    (⟨id, name⟩, { i with own := Function.update i.own kind ((i.own kind).insert entry) }, ids)

/-- The answers to some requests, with what has become of the symbols. -/
def run : List SymbolRequest → IndexedSymbols → IdSource →
    List Symbol × IndexedSymbols × IdSource
  | [], i, ids => ([], i, ids)
  | .within :: requests, i, ids => run requests i.within ids
  | .intern kind name initial :: requests, i, ids =>
    let (symbol, i, ids) := i.intern kind name initial ids
    let (symbols, i, ids) := run requests i ids
    (symbol :: symbols, i, ids)

/-- The tables have these entries, and their indices are in step with them. -/
def TablesCarry (tables : SymbolKind → IndexedTable) (plain : SymbolTables) : Prop :=
  ∀ kind, (tables kind).InStep ∧ (tables kind).entries = plain.get kind

/-- All tables have the entries of the plain ones, and their indices are in step with them. -/
structure Carries (i : IndexedSymbols) (s : Symbols) : Prop where
  /-- The tables of the target itself. -/
  own : TablesCarry i.own s.own
  /-- The tables of the targets around it. -/
  inherited : List.Forall₂ TablesCarry i.inherited s.inherited

theorem tablesCarry_empty : TablesCarry (fun _ ↦ {}) {} := by
  have hempty : (IndexedTable.ofEntries []).InStep := .ofEntries List.Pairwise.nil
  intro kind
  cases kind <;> exact ⟨hempty, rfl⟩

theorem carries_empty : Carries {} {} := ⟨tablesCarry_empty, .nil⟩

theorem TablesCarry.find?_eq {tables : SymbolKind → IndexedTable} {plain : SymbolTables}
    (h : TablesCarry tables plain) (kind : SymbolKind) (name : String) :
    (tables kind).find? name = plain.find? kind name := by
  rw [(h kind).1.find?_eq, (h kind).2]
  rfl

/-- A table that has no entry of a name may get one. -/
theorem TablesCarry.insert {tables : SymbolKind → IndexedTable} {plain : SymbolTables}
    (h : TablesCarry tables plain) {kind : SymbolKind} {entry : Declaration}
    (hnew : plain.find? kind entry.name = none) :
    TablesCarry (Function.update tables kind ((tables kind).insert entry))
      (plain.append entry kind) := by
  intro other
  rw [SymbolTables.get_append]
  by_cases hkind : kind = other
  · subst hkind
    rw [Function.update_self, if_pos rfl, ← (h kind).2]
    refine ⟨(h kind).1.insert fun e he hsame ↦ ?_, rfl⟩
    rw [(h kind).2] at he
    exact absurd (beq_iff_eq.2 hsame) (by simpa using List.find?_eq_none.1 hnew e he)
  · rw [Function.update_of_ne (Ne.symm hkind), if_neg hkind]
    exact h other

namespace Carries

variable {i : IndexedSymbols} {s : Symbols}

theorem within (h : i.Carries s) : i.within.Carries s.within :=
  ⟨tablesCarry_empty, .cons h.own h.inherited⟩

/-- A name is found through the indices as by going through the tables. -/
theorem lookup?_eq (h : i.Carries s) (kind : SymbolKind) (name : String) :
    i.lookup? kind name = s.lookup? kind name := by
  have hfind : ∀ {all : List (SymbolKind → IndexedTable)} {plain : List SymbolTables},
      List.Forall₂ TablesCarry all plain →
      all.findSome? (fun tables ↦ (tables kind).find? name) =
        plain.findSome? (·.find? kind name) := by
    intro all plain hall
    induction hall with
    | nil => rfl
    | cons hfirst _ ih => rw [List.findSome?_cons, List.findSome?_cons, hfirst.find?_eq, ih]
  unfold lookup? Symbols.lookup?
  cases kind.isShared with
  | true => exact congrArg (Option.map _) (hfind (.cons h.own h.inherited))
  | false => exact congrArg (Option.map _) (hfind (.cons h.own .nil))

/-- A request for a name has the same answer, and the indices stay in step. -/
theorem intern (h : i.Carries s) (kind : SymbolKind) (name initial : String) (ids : IdSource) :
    (i.intern kind name initial ids).1 = (s.intern kind name initial ids).1 ∧
      (i.intern kind name initial ids).2.1.Carries (s.intern kind name initial ids).2.1 ∧
      (i.intern kind name initial ids).2.2 = (s.intern kind name initial ids).2.2 := by
  unfold IndexedSymbols.intern Symbols.intern
  rw [h.lookup?_eq]
  cases hlookup : s.lookup? kind name with
  | some known => exact ⟨rfl, h, rfl⟩
  | none =>
    -- a name that nothing in sight has is none of the own table
    have hnone := Option.map_eq_none_iff.1 hlookup
    have hnew : s.own.find? kind name = none := by
      split at hnone <;> exact (List.findSome?_eq_none_iff.1 hnone) s.own List.mem_cons_self
    exact ⟨rfl, ⟨h.own.insert hnew, h.inherited⟩, rfl⟩

/-- **Symbols with indices answer all requests as plain symbols do**, and after any number of them
every index is in step with its table. -/
theorem run (h : i.Carries s) (requests : List SymbolRequest) (ids : IdSource) :
    (IndexedSymbols.run requests i ids).1 = (Symbols.run requests s ids).1 ∧
      (IndexedSymbols.run requests i ids).2.1.Carries (Symbols.run requests s ids).2.1 ∧
      (IndexedSymbols.run requests i ids).2.2 = (Symbols.run requests s ids).2.2 := by
  induction requests generalizing i s ids with
  | nil => exact ⟨rfl, h, rfl⟩
  | cons request requests ih =>
    cases request with
    | within => exact ih h.within ids
    | intern kind name initial =>
      obtain ⟨hsymbol, hcarries, hids⟩ := h.intern kind name initial ids
      obtain ⟨hsymbols, hrest, hlast⟩ := ih hcarries (i.intern kind name initial ids).2.2
      rw [hids] at hsymbols hrest hlast
      simp only [IndexedSymbols.run, Symbols.run]
      rw [hids]
      exact ⟨congrArg₂ List.cons hsymbol hsymbols, hrest, hlast⟩

end Carries

end IndexedSymbols

/-! ### What is in sight -/

namespace Symbols

variable {s t : Symbols} {kind : SymbolKind} {name : String}

theorem inSight_eq (s : Symbols) (kind : SymbolKind) :
    s.inSight kind = s.own.get kind ++
      if kind.isShared then s.inherited.flatMap (·.get kind) else [] := by
  cases hshared : kind.isShared <;> simp [inSight, hshared]

/-- A name refers to the first declaration in sight. -/
theorem lookup?_eq (s : Symbols) (kind : SymbolKind) (name : String) :
    s.lookup? kind name =
      ((s.inSight kind).find? fun e ↦ Text.lower e.name == Text.lower name).map fun e ↦
        ⟨e.id, e.name⟩ := by
  rw [inSight, List.find?_flatMap]
  rfl

/-- The spelling of a name makes no difference. -/
theorem lookup?_congr {name' : String} (h : Text.lower name' = Text.lower name) :
    s.lookup? kind name' = s.lookup? kind name := by
  rw [lookup?_eq, lookup?_eq, h]

/-- No table has two declarations of a name, and neither have the tables that are in sight. -/
structure HasDistinctNames (s : Symbols) : Prop where
  /-- The tables of the target and of those around it, also where they are not in sight. -/
  tables : ∀ table ∈ s.own :: s.inherited, ∀ kind, Declaration.AreDistinct (table.get kind)
  /-- The tables that are in sight. -/
  inSight : ∀ kind, Declaration.AreDistinct (s.inSight kind)

theorem get_empty (kind : SymbolKind) : SymbolTables.get {} kind = [] := by
  cases kind <;> rfl

theorem hasDistinctNames_empty : HasDistinctNames {} where
  tables table htable kind := by
    rw [List.mem_singleton.1 htable, get_empty]
    exact List.Pairwise.nil
  inSight kind := by
    rw [inSight_eq, get_empty]
    cases kind.isShared <;> exact List.Pairwise.nil

namespace HasDistinctNames

/-- Going into a target adds empty tables. -/
theorem within (h : s.HasDistinctNames) : s.within.HasDistinctNames where
  tables table htable kind := by
    rcases List.mem_cons.1 htable with rfl | htable
    · exact (get_empty kind).symm ▸ List.Pairwise.nil
    · exact h.tables table htable kind
  inSight kind := by
    have hsight := h.inSight kind
    rw [inSight_eq] at hsight ⊢
    rw [show s.within.own.get kind = [] from get_empty kind, List.nil_append]
    cases hshared : kind.isShared
    · exact List.Pairwise.nil
    · rw [hshared, if_pos rfl] at hsight
      exact hsight

/-- A new name is one that no table in sight has. -/
theorem intern (h : s.HasDistinctNames) (kind : SymbolKind) (name initial : String)
    (ids : IdSource) : (s.intern kind name initial ids).2.1.HasDistinctNames := by
  rcases s.intern_cases kind name initial ids with ⟨known, -, heq⟩ | ⟨entry, -, rfl, hnew, heq⟩
  · rwa [heq]
  · rw [heq]
    refine ⟨fun table htable other ↦ ?_, fun other ↦ ?_⟩
    · rcases List.mem_cons.1 htable with rfl | htable
      · show Declaration.AreDistinct ((s.own.append entry kind).get other)
        have hown := h.tables s.own List.mem_cons_self other
        rw [SymbolTables.get_append]
        split
        · next hkind =>
          subst hkind
          refine hown.append_singleton fun e he ↦ hnew e ?_
          rw [inSight_eq]
          exact List.mem_append_left _ he
        · exact hown
      · exact h.tables table (List.mem_cons_of_mem _ htable) other
    · have hsight := h.inSight other
      rw [inSight_eq]
      show Declaration.AreDistinct ((s.own.append entry kind).get other ++ _)
      rw [SymbolTables.get_append]
      split
      · next hkind =>
        -- the new entry stands between the own ones and the inherited ones
        subst hkind
        refine (hsight.append_singleton hnew).perm ?_
        rw [inSight_eq, List.append_assoc, List.append_assoc]
        exact List.perm_append_comm.append_left _
      · rwa [inSight_eq] at hsight

end HasDistinctNames

/-! ### Later symbols -/

/-- A name is asked for. -/
def Asks (s t : Symbols) : Prop :=
  ∃ kind name initial ids, t = (s.intern kind name initial ids).2.1

/-- Any number of names is asked for. -/
def Precedes : Symbols → Symbols → Prop := Relation.ReflTransGen Asks

/-- Symbols that start empty or inside others, and of which any names are asked for. -/
inductive Reached : Symbols → Prop where
  /-- Nothing is declared. -/
  | empty : Reached {}
  /-- A target inherits what is in sight. -/
  | within {s : Symbols} (h : Reached s) : Reached s.within
  /-- A name is asked for. -/
  | intern {s : Symbols} (h : Reached s) (kind : SymbolKind) (name initial : String)
    (ids : IdSource) : Reached (s.intern kind name initial ids).2.1

theorem Reached.hasDistinctNames (h : s.Reached) : s.HasDistinctNames := by
  induction h with
  | empty => exact hasDistinctNames_empty
  | within _ ih => exact ih.within
  | intern _ kind name initial ids ih => exact ih.intern kind name initial ids

/-- Indices can be kept along with the tables from the start. -/
theorem Reached.exists_carries (h : s.Reached) : ∃ i : IndexedSymbols, i.Carries s := by
  induction h with
  | empty => exact ⟨{}, IndexedSymbols.carries_empty⟩
  | within _ ih =>
    obtain ⟨i, hi⟩ := ih
    exact ⟨i.within, hi.within⟩
  | intern _ kind name initial ids ih =>
    obtain ⟨i, hi⟩ := ih
    exact ⟨(i.intern kind name initial ids).2.1, (hi.intern kind name initial ids).2.1⟩

theorem Precedes.le (h : s.Precedes t) : s.Le t := by
  induction h with
  | refl => exact .refl s
  | tail _ hasks ih =>
    obtain ⟨kind, name, initial, ids, rfl⟩ := hasks
    exact ih.trans (le_intern _ kind name initial ids)

/-- Tables only grow at their ends, and what is inherited stays as it is. -/
theorem Precedes.grows (h : s.Precedes t) :
    (∀ kind, s.own.get kind <+: t.own.get kind) ∧ t.inherited = s.inherited := by
  induction h with
  | refl => exact ⟨fun _ ↦ List.prefix_rfl, rfl⟩
  | @tail u v _ hasks ih =>
    obtain ⟨kind, name, initial, ids, rfl⟩ := hasks
    refine ⟨fun other ↦ (ih.1 other).trans ?_,
      (u.inherited_intern kind name initial ids).trans ih.2⟩
    rcases u.intern_cases kind name initial ids with ⟨known, -, heq⟩ | ⟨entry, -, -, -, heq⟩
    · exact heq ▸ List.prefix_rfl
    · rw [heq]
      show u.own.get other <+: (u.own.append entry kind).get other
      rw [SymbolTables.get_append]
      split
      · exact List.prefix_append _ _
      · exact List.prefix_rfl

/-- A name that refers to a symbol is not declared again. -/
theorem intern_of_lookup? {symbol : Symbol} (h : s.lookup? kind name = some symbol)
    (initial : String) (ids : IdSource) : s.intern kind name initial ids = (symbol, s, ids) := by
  simp only [intern, h]

/-- A symbol is found under its name ever after, in any spelling, and given when it is asked for. -/
theorem Precedes.found (h : s.Precedes t) {symbol : Symbol} {name' : String}
    (hsymbol : s.lookup? kind name = some symbol) (hname : Text.lower name' = Text.lower name) :
    t.lookup? kind name' = some symbol ∧
      ∀ initial ids, t.intern kind name' initial ids = (symbol, t, ids) := by
  have hlookup : t.lookup? kind name' = some symbol := by
    rw [lookup?_congr hname]
    exact h.le kind name symbol hsymbol
  exact ⟨hlookup, intern_of_lookup? hlookup⟩

/-- What a name means once it means something. -/
structure IsPersistent (s : Symbols) : Prop where
  /-- In each table names are distinct, and an index that is kept along with the entries stays in
  step with them. -/
  indexed : ∀ tables ∈ s.own :: s.inherited, ∀ kind,
    (IndexedTable.ofEntries (tables.get kind)).entries = tables.get kind ∧
      (IndexedTable.ofEntries (tables.get kind)).InStep ∧
      ∀ name, (IndexedTable.ofEntries (tables.get kind)).find? name = tables.find? kind name
  /-- Indices can be kept along with the tables. Wherever they are, all requests have the same
  answers, and afterwards the indices are in step again. -/
  carried : (∃ i : IndexedSymbols, i.Carries s) ∧
    ∀ i : IndexedSymbols, i.Carries s → ∀ requests ids,
      (i.run requests ids).1 = (s.run requests ids).1 ∧
        (i.run requests ids).2.1.Carries (s.run requests ids).2.1
  /-- A name in sight, in any spelling, gives its declaration, and nothing changes. -/
  known : ∀ kind, ∀ entry ∈ s.inSight kind, ∀ name, Text.lower name = Text.lower entry.name →
    s.lookup? kind name = some ⟨entry.id, entry.name⟩ ∧
      ∀ initial ids, s.intern kind name initial ids = (⟨entry.id, entry.name⟩, s, ids)
  /-- Any other name is declared: its table gets one more entry, with the initial value that was
  given or else zero, and nothing else changes. The entry stays where it is. -/
  new : ∀ kind name, (∀ entry ∈ s.inSight kind, Text.lower entry.name ≠ Text.lower name) →
    s.lookup? kind name = none ∧
    ∀ initial ids, ∃ own : SymbolTables,
      s.intern kind name initial ids =
        (⟨(newId kind name ids).1, name⟩, ⟨own, s.inherited⟩, (newId kind name ids).2) ∧
      own.get kind = s.own.get kind ++
        [⟨(newId kind name ids).1, name, if initial = "" then "0" else initial⟩] ∧
      (∀ other, other ≠ kind → own.get other = s.own.get other) ∧
      ∀ t, Precedes ⟨own, s.inherited⟩ t → own.get kind <+: t.own.get kind
  /-- A symbol that was found under a name is found and given for it from then on, in any
  spelling. -/
  found : ∀ kind name symbol t, s.lookup? kind name = some symbol → s.Precedes t →
    ∀ name', Text.lower name' = Text.lower name → t.lookup? kind name' = some symbol ∧
      ∀ initial ids, t.intern kind name' initial ids = (symbol, t, ids)
  /-- So is a symbol that was given for a name. -/
  returned : ∀ kind name initial ids t, (s.intern kind name initial ids).2.1.Precedes t →
    ∀ name', Text.lower name' = Text.lower name →
      t.lookup? kind name' = some (s.intern kind name initial ids).1 ∧
        ∀ initial' ids', t.intern kind name' initial' ids' =
          ((s.intern kind name initial ids).1, t, ids')
  /-- Entries keep their places, names and values. -/
  entries : ∀ t, s.Precedes t →
    (∀ kind, s.own.get kind <+: t.own.get kind) ∧ t.inherited = s.inherited

/-- **The first declaration of a name settles its identifier, its spelling and its value**, whatever
is asked for afterwards. -/
theorem isPersistent_of_reached (h : s.Reached) : s.IsPersistent := by
  have hdistinct := h.hasDistinctNames
  refine ⟨fun tables htables kind ↦ ?_, ⟨h.exists_carries, fun i hi requests ids ↦
    ⟨(hi.run requests ids).1, (hi.run requests ids).2.1⟩⟩, fun kind entry hentry name hname ↦ ?_,
    fun kind name hnew ↦ ?_, fun kind name symbol t hsymbol ht name' hname ↦ ht.found hsymbol hname,
    fun kind name initial ids t ht name' hname ↦
      ht.found (s.lookup?_intern_self kind name initial ids) hname, fun t ht ↦ ht.grows⟩
  · have hstep := IndexedTable.InStep.ofEntries (hdistinct.tables tables htables kind)
    refine ⟨IndexedTable.entries_ofEntries _, hstep, fun name ↦ ?_⟩
    rw [hstep.find?_eq, IndexedTable.entries_ofEntries]
    rfl
  · -- the names in sight differ, so the entry is the first that is found
    have hlookup : s.lookup? kind name = some ⟨entry.id, entry.name⟩ := by
      rw [lookup?_eq, (hdistinct.inSight kind).find?_eq_some hentry hname.symm]
      rfl
    exact ⟨hlookup, intern_of_lookup? hlookup⟩
  · have hlookup : s.lookup? kind name = none := by
      rw [lookup?_eq, Option.map_eq_none_iff, List.find?_eq_none]
      exact fun e he hsame ↦ hnew e he (beq_iff_eq.1 hsame)
    refine ⟨hlookup, fun initial ids ↦ ?_⟩
    refine ⟨s.own.append ⟨(newId kind name ids).1, name, Text.orElse initial "0"⟩ kind, ?_, ?_, ?_,
      fun t ht ↦ ht.grows.1 kind⟩
    · simp only [intern, hlookup]
    · rw [SymbolTables.get_append, if_pos rfl]
      simp [Text.orElse]
    · intro other hother
      rw [SymbolTables.get_append, if_neg (Ne.symm hother)]

/-- A sprite that declares a list of its own beside the variable of the stage. -/
def sampleSprite : Symbols :=
  let stage := (intern {} .vars "Score" "5" {}).2.1
  (stage.within.intern .lists "items" "" ⟨1⟩).2.1

theorem isPersistent_of_reached_sprite : sampleSprite.Reached ∧ sampleSprite.IsPersistent ∧
    (sampleSprite.intern .vars "SCORE" "9" ⟨2⟩).1 = ⟨"var_1", "Score"⟩ ∧
    sampleSprite.own.get .lists = [⟨"lis_2", "items", "0"⟩] := by
  have hreached : sampleSprite.Reached :=
    .intern (.within (.intern .empty .vars "Score" "5" {})) .lists "items" "" ⟨1⟩
  exact ⟨hreached, isPersistent_of_reached hreached, by decide +kernel, by decide +kernel⟩

end Symbols

end BlockScript

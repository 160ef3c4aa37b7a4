import BlockScript.Symbols
import Mathlib.Data.List.Basic

/-!
# Symbols are persistent

Interning a name finds the symbol it refers to or declares it. Either way the symbol is found
under that name from then on (`Symbols.lookup?_intern_self`), and no name that referred to a
symbol before refers to another one afterwards (`Symbols.le_intern`): the first declaration of a
name settles what it means. `Symbols.Answers` says that the tables hold nothing but what was
asked for, each name once.
-/

namespace BlockScript

/-- A name asked for in one of the tables. -/
abbrev Request := SymbolKind × String

namespace SymbolTables

/-- A new entry changes the table of its kind only. -/
theorem get_append (t : SymbolTables) (entry : Declaration) (kind other : SymbolKind) :
    (t.append entry kind).get other =
      if kind = other then t.get other ++ [entry] else t.get other := by
  cases kind <;> cases other <;> simp [append, get]

/-- A new entry is found under its name when no earlier entry has the name. -/
theorem find?_append (t : SymbolTables) (entry : Declaration) (kind other : SymbolKind)
    (name : String) :
    (t.append entry kind).find? other name =
      if kind = other then
        (t.find? other name).or
          (if Text.lower entry.name == Text.lower name then some entry else none)
      else t.find? other name := by
  have hmatch : [entry].find? (fun e ↦ Text.lower e.name == Text.lower name) =
      if Text.lower entry.name == Text.lower name then some entry else none := by
    rw [List.find?_singleton]
  rw [find?, get_append]
  split <;> simp [find?, List.find?_append, hmatch]

end SymbolTables

namespace Symbols

/-- Every name that refers to a symbol in the first tables refers to the same one in the
second. -/
def Le (s t : Symbols) : Prop :=
  ∀ kind name symbol, s.lookup? kind name = some symbol → t.lookup? kind name = some symbol

/-- Every table extends itself. -/
theorem Le.refl (s : Symbols) : s.Le s := fun _ _ _ h ↦ h

/-- An extension of an extension is an extension. -/
theorem Le.trans {s t u : Symbols} (h : s.Le t) (h' : t.Le u) : s.Le u :=
  fun kind name symbol hs ↦ h' kind name symbol (h kind name symbol hs)

/-- The look-up after a declaration, in terms of the look-up before it. -/
theorem lookup?_append {s : Symbols} {kind : SymbolKind} {entry : Declaration}
    (hnew : s.lookup? kind entry.name = none) (other : SymbolKind) (name : String) :
    lookup? { s with own := s.own.append entry kind } other name =
      if kind = other ∧ Text.lower entry.name = Text.lower name then some ⟨entry.id, entry.name⟩
      else s.lookup? other name := by
  by_cases hk : kind = other
  · subst hk
    by_cases hn : Text.lower entry.name = Text.lower name
    · -- the new entry is the only one under its lower-case form
      have hfind : ∀ t : SymbolTables, t.find? kind name = t.find? kind entry.name := by
        intro t
        simp [SymbolTables.find?, hn]
      simp only [lookup?, Option.map_eq_none_iff, List.findSome?_eq_none_iff] at hnew
      have hown : s.own.find? kind entry.name = none := by
        refine hnew s.own ?_
        split <;> simp
      rw [if_pos ⟨rfl, hn⟩]
      cases hs : kind.isShared <;>
        simp [lookup?, hs, SymbolTables.find?_append, hfind s.own, hown, hn]
    · rw [if_neg fun h ↦ hn h.2]
      have hne : (Text.lower entry.name == Text.lower name) = false := by simpa using hn
      cases hs : kind.isShared <;>
        simp [lookup?, hs, List.findSome?_cons, SymbolTables.find?_append, hne]
  · rw [if_neg fun h ↦ hk h.1]
    cases hs : other.isShared <;>
      simp [lookup?, hs, List.findSome?_cons, SymbolTables.find?_append, hk]

/-- A name that was asked for is found afterwards. -/
theorem lookup?_intern_self (s : Symbols) (kind : SymbolKind) (name initial : String)
    (ids : IdSource) :
    (s.intern kind name initial ids).2.1.lookup? kind name =
      some (s.intern kind name initial ids).1 := by
  cases h : s.lookup? kind name with
  | some known => simp [intern, h]
  | none =>
    simp only [intern, h]
    rw [lookup?_append (by exact h), if_pos ⟨rfl, rfl⟩]

/-- Asking for a name keeps every symbol that was found before. -/
theorem le_intern (s : Symbols) (kind : SymbolKind) (name initial : String) (ids : IdSource) :
    s.Le (s.intern kind name initial ids).2.1 := by
  intro other text symbol hs
  cases h : s.lookup? kind name with
  | some known => simpa [intern, h] using hs
  | none =>
    simp only [intern, h]
    rw [lookup?_append (by exact h)]
    split
    · next hsame =>
      -- the name would have been found before
      obtain ⟨rfl, hlower⟩ := hsame
      have hfind : ∀ t : SymbolTables, t.find? kind text = t.find? kind name := by
        intro t
        have : Text.lower name = Text.lower text := hlower
        simp [SymbolTables.find?, this]
      have hsame : s.lookup? kind text = s.lookup? kind name := by
        simp only [lookup?, hfind]
      rw [hsame, h] at hs
      cases hs
    · exact hs

/-- Asking for a name gives no identifier back. -/
theorem drawn_le_intern (s : Symbols) (kind : SymbolKind) (name initial : String)
    (ids : IdSource) : ids.drawn ≤ (s.intern kind name initial ids).2.2.drawn := by
  cases h : s.lookup? kind name with
  | some known => simp [intern, h]
  | none => cases kind <;> simp [intern, h, newId, IdSource.next]

/-- Asking for a name leaves the tables of the stage alone. -/
theorem inherited_intern (s : Symbols) (kind : SymbolKind) (name initial : String)
    (ids : IdSource) : (s.intern kind name initial ids).2.1.inherited = s.inherited := by
  cases h : s.lookup? kind name <;> simp [intern, h]

/-! ### What was asked for -/

/-- The tables know every name that was asked for, and they hold no other names and none
twice. -/
structure Answers (s : Symbols) (asked : List Request) : Prop where
  /-- Every name asked for refers to a symbol. -/
  known : ∀ r ∈ asked, (s.lookup? r.1 r.2).isSome
  /-- Every declared name was asked for as it is spelled. -/
  named : ∀ kind, ∀ entry ∈ s.own.get kind, (kind, entry.name) ∈ asked
  /-- No two declared names are the same in lower case. -/
  distinct : ∀ kind, (s.own.get kind).Pairwise fun a b ↦ Text.lower a.name ≠ Text.lower b.name

/-- A registry without names of its own answers no request. -/
theorem answers_empty (inherited : List SymbolTables) : (⟨{}, inherited⟩ : Symbols).Answers [] where
  known := by simp
  named kind := by cases kind <;> simp [SymbolTables.get]
  distinct kind := by cases kind <;> simp [SymbolTables.get]

/-- Which requests were answered does not depend on their order or number. -/
theorem Answers.congr {s : Symbols} {asked asked' : List Request} (h : s.Answers asked)
    (hmem : ∀ r, r ∈ asked ↔ r ∈ asked') : s.Answers asked' where
  known r hr := h.known r ((hmem r).2 hr)
  named kind entry he := (hmem _).1 (h.named kind entry he)
  distinct := h.distinct

/-- A name is not found when no table in sight has an entry with its lower-case form. -/
theorem lookup?_eq_none_iff {s : Symbols} {kind : SymbolKind} {name : String} :
    s.lookup? kind name = none ↔
      ∀ t ∈ (if kind.isShared then s.own :: s.inherited else [s.own]),
        ∀ entry ∈ t.get kind, Text.lower entry.name ≠ Text.lower name := by
  simp [lookup?, SymbolTables.find?, List.findSome?_eq_none_iff]

/-- A registry that answered some requests answers one more after it. -/
theorem Answers.intern {s : Symbols} {asked : List Request} (h : s.Answers asked)
    (kind : SymbolKind) (name initial : String) (ids : IdSource) :
    (s.intern kind name initial ids).2.1.Answers (asked ++ [(kind, name)]) := by
  have hle := s.le_intern kind name initial ids
  have hknown : ∀ r ∈ asked ++ [(kind, name)],
      ((s.intern kind name initial ids).2.1.lookup? r.1 r.2).isSome := by
    intro r hr
    rcases List.mem_append.1 hr with hr | hr
    · obtain ⟨symbol, hs⟩ := Option.isSome_iff_exists.1 (h.known r hr)
      rw [hle _ _ _ hs]
      rfl
    · obtain rfl := List.mem_singleton.1 hr
      rw [lookup?_intern_self]
      rfl
  cases hlook : s.lookup? kind name with
  | some known =>
    simp only [Symbols.intern, hlook] at hknown ⊢
    exact ⟨hknown, fun k e he ↦ List.mem_append_left _ (h.named k e he), h.distinct⟩
  | none =>
    simp only [Symbols.intern, hlook] at hknown ⊢
    refine ⟨hknown, fun k e he ↦ ?_, fun k ↦ ?_⟩
    · rw [SymbolTables.get_append] at he
      split at he
      · next hk =>
        rcases List.mem_append.1 he with he | he
        · exact List.mem_append_left _ (h.named k e he)
        · rw [List.mem_singleton.1 he, hk]
          exact List.mem_append_right _ (List.mem_singleton.2 rfl)
      · exact List.mem_append_left _ (h.named k e he)
    · rw [SymbolTables.get_append]
      split
      · next hk =>
        -- the name was not found, so it differs from all names of its table
        subst hk
        refine List.pairwise_append.2 ⟨h.distinct kind, List.pairwise_singleton _ _, ?_⟩
        intro a ha b hb
        rw [List.mem_singleton.1 hb]
        exact lookup?_eq_none_iff.1 hlook s.own (by split <;> simp) a ha
      · exact h.distinct k

end Symbols

end BlockScript

import BlockScript.Dict
import Mathlib.Data.List.Induction
import Mathlib.Data.List.Nodup

/-!
# Laws of dictionaries

A dictionary is determined by what it finds under each key (`Dict.ext_find?`), and the other
operations are described by what they do to look-ups: `find?_insert`, `find?_modify`. The listing of
a dictionary is tied to its look-ups by `mem_entries_iff`, and `entries_map_eq` compares the
listings of two dictionaries key by key.
-/

namespace BlockScript.Dict

variable {α β γ : Type}

/-! ### Entries and look-up -/

/-- A key in a sorted list is looked up with the value of its only entry. -/
theorem lookup_eq_some_iff {l : List (String × α)} (h : l.Pairwise fun a b ↦ a.1 < b.1)
    {key : String} {value : α} : lookup key l = some value ↔ (key, value) ∈ l := by
  induction l with
  | nil => simp [lookup]
  | cons hd tl ih =>
    obtain ⟨hhd, htl⟩ := List.pairwise_cons.1 h
    by_cases hk : hd.1 = key
    · have hlook : lookup key (hd :: tl) = some hd.2 := by simp [lookup, hk]
      rw [hlook, List.mem_cons, Option.some.injEq]
      constructor
      · rintro rfl
        exact .inl (Prod.ext hk.symm rfl)
      · rintro (heq | hmem)
        · rw [← heq]
        · have := hhd _ hmem
          rw [hk] at this
          exact absurd this (String.lt_irrefl key)
    · have hlook : lookup key (hd :: tl) = lookup key tl := by
        simp [lookup, hk]
      rw [hlook, ih htl, List.mem_cons]
      refine ⟨.inr, ?_⟩
      rintro (heq | hmem)
      · exact absurd (congrArg Prod.fst heq).symm hk
      · exact hmem

/-- The value found under a key is that of some entry with the key. -/
theorem exists_lookup_of_mem {l : List (String × α)} {key : String} {value : α}
    (h : (key, value) ∈ l) : ∃ found, lookup key l = some found ∧ (key, found) ∈ l := by
  cases hfind : l.find? (·.1 == key) with
  | none => simpa using List.find?_eq_none.1 hfind _ h
  | some entry =>
    obtain ⟨other, found⟩ := entry
    obtain rfl : other = key := by simpa using List.find?_some hfind
    exact ⟨found, by rw [lookup, hfind]; rfl, List.mem_of_find?_eq_some hfind⟩

/-- The entries of a dictionary are what is found in it. -/
theorem mem_entries_iff {d : Dict α} {key : String} {value : α} :
    (key, value) ∈ d.entries ↔ d.find? key = some value :=
  (lookup_eq_some_iff d.sorted).symm

/-- The keys of a dictionary are those under which something is found. -/
theorem mem_keys_iff {d : Dict α} {key : String} : key ∈ d.keys ↔ ∃ v, d.find? key = some v := by
  simp only [keys, List.mem_map, Prod.exists, exists_and_right, exists_eq_right, mem_entries_iff]

/-- A dictionary contains the keys under which something is found. -/
theorem contains_iff {d : Dict α} {key : String} :
    d.contains key = true ↔ ∃ v, d.find? key = some v := by
  rw [contains, Option.isSome_iff_exists]

/-- The keys are in increasing order. -/
theorem keys_pairwise (d : Dict α) : d.keys.Pairwise (· < ·) := by
  rw [keys, List.pairwise_map]
  exact d.sorted

/-- A smaller key is another key. -/
theorem key_ne_of_lt {a b : String} (h : a < b) : a ≠ b := by
  rintro rfl
  exact String.lt_irrefl a h

/-- No key occurs twice. -/
theorem keys_nodup (d : Dict α) : d.keys.Nodup :=
  d.keys_pairwise.imp key_ne_of_lt

/-- Nothing is found in an empty dictionary. -/
@[simp]
theorem find?_empty (key : String) : (∅ : Dict α).find? key = none := rfl

/-! ### Extensionality -/

/-- Two increasing lists with the same members are equal. -/
theorem eq_of_pairwise_of_mem_iff {l r : List String} (hl : l.Pairwise (· < ·))
    (hr : r.Pairwise (· < ·)) (h : ∀ x, x ∈ l ↔ x ∈ r) : l = r := by
  have hperm : l.Perm r :=
    (List.perm_ext_iff_of_nodup (hl.imp key_ne_of_lt) (hr.imp key_ne_of_lt)).2 h
  exact hperm.eq_of_pairwise (fun a b _ _ hab hba ↦
    absurd (String.lt_trans hab hba) (String.lt_irrefl a)) hl hr

/-- Dictionaries with the same keys list the same values wherever look-ups agree. -/
theorem entries_map_eq {d : Dict α} {e : Dict β} (f : String × α → γ) (g : String × β → γ)
    (hkeys : ∀ key, (d.find? key).isSome = (e.find? key).isSome)
    (hval : ∀ key a b, d.find? key = some a → e.find? key = some b → f (key, a) = g (key, b)) :
    d.entries.map f = e.entries.map g := by
  have hk : d.keys = e.keys := by
    refine eq_of_pairwise_of_mem_iff d.keys_pairwise e.keys_pairwise fun x ↦ ?_
    rw [mem_keys_iff, mem_keys_iff, ← Option.isSome_iff_exists, ← Option.isSome_iff_exists, hkeys]
  have hlen : d.entries.length = e.entries.length := by
    simpa [keys] using congrArg List.length hk
  -- the keys agree, so entries in the same place have the same key
  refine List.ext_getElem (by simpa using hlen) fun i hi hi' ↦ ?_
  rw [List.getElem_map, List.getElem_map]
  have hid : i < d.entries.length := by simpa using hi
  have hie : i < e.entries.length := by simpa using hi'
  have hkey : d.entries[i].1 = e.entries[i].1 := by
    have := congrArg (·[i]?) hk
    simpa [keys, hid, hie] using this
  have hd := mem_entries_iff.1 (show (d.entries[i].1, d.entries[i].2) ∈ d.entries from
    List.getElem_mem hid)
  have he := mem_entries_iff.1 (show (e.entries[i].1, e.entries[i].2) ∈ e.entries from
    List.getElem_mem hie)
  rw [← hkey] at he
  calc f d.entries[i] = g (d.entries[i].1, e.entries[i].2) := hval _ _ _ hd he
    _ = g e.entries[i] := by rw [hkey]

/-- Dictionaries in which the same is found are equal. -/
theorem ext_find? {d e : Dict α} (h : ∀ key, d.find? key = e.find? key) : d = e := by
  refine ext ?_
  have := entries_map_eq (d := d) (e := e) id id (fun key ↦ by rw [h]) fun key a b ha hb ↦ by
    rw [h, hb] at ha
    rw [Option.some.inj ha]
  simpa using this

/-! ### Operations -/

/-- What is found after an insertion. -/
theorem find?_insert (d : Dict α) (key other : String) (value : α) :
    (d.insert key value).find? other = if other = key then some value else d.find? other := by
  split
  · next h => rw [h, find?_insert_self]
  · next h => exact find?_insert_of_ne d value h

/-- A value under a new key adds that key. -/
theorem keys_insert_perm {d : Dict α} {key : String} (h : key ∉ d.keys) (value : α) :
    (d.insert key value).keys.Perm (key :: d.keys) := by
  refine (List.perm_ext_iff_of_nodup (keys_nodup _) (List.nodup_cons.2 ⟨h, keys_nodup d⟩)).2
    fun other ↦ ?_
  rw [List.mem_cons, mem_keys_iff, mem_keys_iff, find?_insert]
  by_cases heq : other = key <;> simp [heq]

/-- A dictionary of entries has no others. -/
theorem mem_of_mem_ofList {l : List (String × α)} {entry : String × α}
    (h : entry ∈ (ofList l).entries) : entry ∈ l := by
  have hfold : ∀ (l : List (String × α)) (d : Dict α),
      entry ∈ (l.foldl (fun d entry ↦ d.insert entry.1 entry.2) d).entries →
        entry ∈ d.entries ∨ entry ∈ l := by
    intro l
    induction l with
    | nil => exact fun _ h ↦ .inl h
    | cons e l ih =>
      intro d h
      rcases ih _ h with h | h
      · exact (mem_put h).elim (fun heq ↦ .inr (heq ▸ List.mem_cons_self)) .inl
      · exact .inr (List.mem_cons_of_mem _ h)
  exact (hfold l empty h).resolve_left List.not_mem_nil

/-- The last entry of a list is inserted last. -/
theorem ofList_append_singleton (l : List (String × α)) (entry : String × α) :
    ofList (l ++ [entry]) = (ofList l).insert entry.1 entry.2 := by
  simp [ofList]

/-- In a list of entries the last one for a key counts. -/
theorem find?_ofList (l : List (String × α)) (key : String) :
    (ofList l).find? key = lookup key l.reverse := by
  induction l using List.reverseRecOn with
  | nil => rfl
  | append_singleton l entry ih =>
    rw [ofList_append_singleton, find?_insert, ih, List.reverse_append, List.reverse_singleton,
      List.singleton_append]
    by_cases h : key = entry.1
    · simp [lookup, h]
    · have hne : (entry.1 == key) = false := beq_eq_false_iff_ne.2 (Ne.symm h)
      simp [lookup, h, hne]

/-- Entries with different keys are all kept. -/
theorem perm_entries_ofList {l : List (String × α)} (h : (l.map Prod.fst).Nodup) :
    (ofList l).entries.Perm l := by
  have hkeys : ((ofList l).entries.map Prod.fst).Nodup := (ofList l).keys_nodup
  refine (List.perm_ext_iff_of_nodup hkeys.of_map h.of_map).2 fun entry ↦ ⟨mem_of_mem_ofList, ?_⟩
  induction l using List.reverseRecOn with
  | nil => exact fun hmem ↦ absurd hmem List.not_mem_nil
  | append_singleton l last ih =>
    intro hmem
    rw [List.map_append, List.nodup_append] at h
    rw [ofList_append_singleton]
    obtain ⟨key, value⟩ := entry
    rw [mem_entries_iff, find?_insert]
    rcases List.mem_append.1 hmem with hmem | hmem
    · have hne : key ≠ last.1 := h.2.2 key (List.mem_map_of_mem hmem) last.1 (by simp)
      rw [if_neg hne]
      exact mem_entries_iff.1 (ih h.1 (ofList l).keys_nodup hmem)
    · obtain rfl := List.mem_singleton.1 hmem
      rw [if_pos rfl]

/-- A dictionary is made of its own entries. -/
@[simp]
theorem ofList_entries (d : Dict α) : ofList d.entries = d := by
  refine ext_find? fun key ↦ Option.ext fun value ↦ ?_
  rw [← mem_entries_iff, ← mem_entries_iff]
  exact (perm_entries_ofList d.keys_nodup).mem_iff

/-- A changed value leaves the keys as they are. -/
@[simp]
theorem keys_modify (d : Dict α) (key : String) (f : α → α) : (d.modify key f).keys = d.keys := by
  show (d.entries.map _).map _ = d.entries.map _
  rw [List.map_map]
  refine List.map_congr_left fun entry _ ↦ ?_
  show (if entry.1 = key then (entry.1, f entry.2) else entry).1 = entry.1
  split <;> rfl

/-- What is found after a change. -/
theorem find?_modify (d : Dict α) (key other : String) (f : α → α) :
    (d.modify key f).find? other =
      if other = key then (d.find? other).map f else d.find? other := by
  refine Option.ext fun v ↦ ?_
  rw [← mem_entries_iff]
  simp only [modify, List.mem_map, Prod.exists]
  constructor
  · rintro ⟨k, w, hmem, heq⟩
    rw [mem_entries_iff] at hmem
    split at heq
    · next hk =>
      cases heq
      simp [hk ▸ hmem, hk]
    · next hk =>
      cases heq
      simp [hk, hmem]
  · intro h
    split at h
    · next hk =>
      obtain ⟨w, hw, rfl⟩ := Option.map_eq_some_iff.1 h
      exact ⟨other, w, mem_entries_iff.2 hw, by simp [hk]⟩
    · next hk => exact ⟨other, v, mem_entries_iff.2 h, by simp [hk]⟩

/-- Changes under different keys do not interfere. -/
theorem modify_comm (d : Dict α) {key other : String} (h : key ≠ other) (f g : α → α) :
    (d.modify key f).modify other g = (d.modify other g).modify key f := by
  refine ext_find? fun k ↦ ?_
  simp only [find?_modify]
  by_cases hk : k = key
  · have hne : k ≠ other := fun heq ↦ h (hk.symm.trans heq)
    simp [hk, h]
  · simp [hk]

end BlockScript.Dict

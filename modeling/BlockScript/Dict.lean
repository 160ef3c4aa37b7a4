/-!
# Dictionaries with text keys

A dictionary is a list of entries in strictly increasing order of their keys, so that two
dictionaries with the same entries are equal and every listing of one comes out in the same
order. Keys are ordered by code point, which is also the order of their UTF-8 bytes.
-/

namespace BlockScript

/-- Entries in strictly increasing order of their keys. -/
structure Dict (α : Type) where
  /-- The entries in order. -/
  entries : List (String × α)
  /-- Keys increase from entry to entry. -/
  sorted : entries.Pairwise fun a b ↦ a.1 < b.1
deriving DecidableEq, Repr

namespace Dict

variable {α β : Type}

/-- The dictionary without entries. -/
def empty : Dict α := ⟨[], .nil⟩

instance : EmptyCollection (Dict α) := ⟨empty⟩

instance : Inhabited (Dict α) := ⟨empty⟩

/-! ### Look-up -/

/-- The value under a key in a list of entries. -/
def lookup (key : String) (entries : List (String × α)) : Option α :=
  (entries.find? (·.1 == key)).map (·.2)

/-- The value under a key. -/
def find? (d : Dict α) (key : String) : Option α :=
  lookup key d.entries

/-- Whether a key has a value. -/
def contains (d : Dict α) (key : String) : Bool :=
  (d.find? key).isSome

/-- The number of entries. -/
def size (d : Dict α) : Nat := d.entries.length

/-- Whether there is no entry. -/
def isEmpty (d : Dict α) : Bool := d.entries.isEmpty

/-- The keys in order. -/
def keys (d : Dict α) : List String := d.entries.map (·.1)

/-- The values in the order of their keys. -/
def values (d : Dict α) : List α := d.entries.map (·.2)

/-! ### Insertion -/

/-- Puts a value under a key into a list of entries, in place of the value that was there. -/
def put (key : String) (value : α) : List (String × α) → List (String × α)
  | [] => [(key, value)]
  | entry :: rest =>
    if key < entry.1 then (key, value) :: entry :: rest
    else if key = entry.1 then (key, value) :: rest
    else entry :: put key value rest

/-- An entry after a put is the new one or was there before. -/
theorem mem_put {key : String} {value : α} {entry : String × α} {l : List (String × α)}
    (h : entry ∈ put key value l) : entry = (key, value) ∨ entry ∈ l := by
  induction l with
  | nil => simpa [put] using h
  | cons hd tl ih =>
    rw [put] at h
    split at h
    · simpa using h
    · split at h
      · rcases List.mem_cons.1 h with h | h
        · exact .inl h
        · exact .inr (List.mem_cons_of_mem _ h)
      · rcases List.mem_cons.1 h with h | h
        · exact .inr (h ▸ List.mem_cons_self)
        · exact (ih h).imp id (List.mem_cons_of_mem _)

/-- A put keeps the keys in increasing order. -/
theorem pairwise_put {key : String} {value : α} {l : List (String × α)}
    (h : l.Pairwise fun a b ↦ a.1 < b.1) : (put key value l).Pairwise fun a b ↦ a.1 < b.1 := by
  induction l with
  | nil => exact List.pairwise_singleton _ _
  | cons hd tl ih =>
    obtain ⟨hhd, htl⟩ := List.pairwise_cons.1 h
    rw [put]
    split
    · next hlt =>
      refine List.pairwise_cons.2 ⟨fun e he ↦ ?_, h⟩
      rcases List.mem_cons.1 he with he | he
      · exact he ▸ hlt
      · exact String.lt_trans hlt (hhd e he)
    · split
      · next heq => exact List.pairwise_cons.2 ⟨fun e he ↦ heq ▸ hhd e he, htl⟩
      · next hlt hne =>
        refine List.pairwise_cons.2 ⟨fun e he ↦ ?_, ih htl⟩
        rcases mem_put he with he | he
        · subst he
          exact (Decidable.not_not.1 fun hn ↦
            hne (String.le_antisymm (String.not_lt.1 hn) (String.not_lt.1 hlt)))
        · exact hhd e he

/-- The dictionary with a value under a key, in place of the value that was there. -/
def insert (d : Dict α) (key : String) (value : α) : Dict α :=
  ⟨put key value d.entries, pairwise_put d.sorted⟩

/-- The dictionary of a list of entries, of which later ones win. -/
def ofList (entries : List (String × α)) : Dict α :=
  entries.foldl (fun d entry ↦ d.insert entry.1 entry.2) empty

/-! ### Change -/

/-- Changes the value under a key, if there is one. -/
def modify (d : Dict α) (key : String) (f : α → α) : Dict α :=
  ⟨d.entries.map fun entry ↦ if entry.1 = key then (entry.1, f entry.2) else entry, by
    rw [List.pairwise_map]
    refine d.sorted.imp fun {a b} h ↦ ?_
    split <;> split <;> exact h⟩

/-- Changes every value. -/
def map (d : Dict α) (f : α → β) : Dict β :=
  ⟨d.entries.map fun entry ↦ (entry.1, f entry.2), by
    rw [List.pairwise_map]
    exact d.sorted⟩

/-! ### Laws -/

/-- Dictionaries with the same entries are equal. -/
theorem ext {d e : Dict α} (h : d.entries = e.entries) : d = e := by
  cases d; cases e; cases h; rfl

/-- A key that was put is looked up with its new value. -/
theorem lookup_put_self (key : String) (value : α) (l : List (String × α)) :
    lookup key (put key value l) = some value := by
  induction l with
  | nil => simp [put, lookup]
  | cons hd tl ih =>
    rw [put]
    split
    · simp [lookup]
    · split
      · simp [lookup]
      · next hne =>
        have : (hd.1 == key) = false := by simpa using fun h ↦ hne h.symm
        simp only [lookup, List.find?_cons, this] at ih ⊢
        exact ih

/-- A put leaves the other keys alone. -/
theorem lookup_put_of_ne {key other : String} (value : α) (h : other ≠ key)
    (l : List (String × α)) : lookup other (put key value l) = lookup other l := by
  have hk : (key == other) = false := by simpa using h.symm
  induction l with
  | nil => simp [put, lookup, hk]
  | cons hd tl ih =>
    rw [put]
    split
    · simp [lookup, hk]
    · split
      · next heq =>
        have : (hd.1 == other) = false := by simpa [← heq] using h.symm
        simp [lookup, hk, this]
      · simp only [lookup, List.find?_cons] at ih ⊢
        split
        · rfl
        · exact ih

/-- A key that was inserted is found with its new value. -/
@[simp]
theorem find?_insert_self (d : Dict α) (key : String) (value : α) :
    (d.insert key value).find? key = some value :=
  lookup_put_self key value d.entries

/-- An insertion leaves the other keys alone. -/
theorem find?_insert_of_ne (d : Dict α) {key other : String} (value : α) (h : other ≠ key) :
    (d.insert key value).find? other = d.find? other :=
  lookup_put_of_ne value h d.entries

end Dict

end BlockScript

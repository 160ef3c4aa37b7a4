import BlockScript.Json.Parser
import BlockScript.Proofs.Dictionary

/-!
# The order of fields

A value of a document carries the fields of an object as a list. In a value that was read they are
in increasing order of their keys, each key once, in the object itself and in all objects inside it
(`Json.isOrdered_of_parse?`): whatever order a text gives them in, the reader builds objects with
`Json.object`, and never in another way.
-/

namespace BlockScript.Json

/-- Every object in the value has its fields in increasing order of their keys. -/
inductive IsOrdered : Json → Prop where
  | null : IsOrdered .null
  | bool (value : Bool) : IsOrdered (.bool value)
  | num (value : JsonNumber) : IsOrdered (.num value)
  | str (value : String) : IsOrdered (.str value)
  | arr {items : List Json} (hitems : ∀ item ∈ items, IsOrdered item) : IsOrdered (.arr items)
  | obj {fields : List (String × Json)} (hsorted : fields.Pairwise fun a b ↦ a.1 < b.1)
    (hfields : ∀ entry ∈ fields, IsOrdered entry.2) : IsOrdered (.obj fields)

/-! ### Parts of a value -/

section

variable {value part : Json} {key : String} {items : List Json} {fields : List (String × Json)}

theorem IsOrdered.of_get? (h : value.IsOrdered) (hget : value.get? key = some part) :
    part.IsOrdered := by
  cases h with
  | obj hsorted hfields =>
    exact hfields (key, part) ((Dict.lookup_eq_some_iff hsorted).1 hget)
  | _ => cases hget

theorem IsOrdered.of_getArr? (h : value.IsOrdered) (hget : value.getArr? key = some items) :
    ∀ item ∈ items, item.IsOrdered := by
  obtain ⟨part, hpart, harr⟩ := Option.bind_eq_some_iff.1 hget
  cases h.of_get? hpart with
  | arr hitems => cases harr; exact hitems
  | _ => cases harr

/-- The fields of an object in an ordered value are those of a dictionary. -/
theorem IsOrdered.of_getObj? (h : value.IsOrdered) (hget : value.getObj? key = some fields) :
    fields.Pairwise (fun a b ↦ a.1 < b.1) ∧ ∀ entry ∈ fields, entry.2.IsOrdered := by
  obtain ⟨part, hpart, hobj⟩ := Option.bind_eq_some_iff.1 hget
  cases h.of_get? hpart with
  | obj hsorted hfields => cases hobj; exact ⟨hsorted, hfields⟩
  | _ => cases hobj

/-- An object is made in order, whatever order its fields are given in. -/
theorem isOrdered_object (h : ∀ entry ∈ fields, entry.2.IsOrdered) : (object fields).IsOrdered :=
  .obj (Dict.ofList fields).sorted fun entry hentry ↦ h entry (Dict.mem_of_mem_ofList hentry)

end

/-! ### Readers -/

section

variable {item : Reader} {bound : Nat} {cs rest : List Char}

/-- A reader of values gives ordered ones. -/
def ReadsOrdered (item : Reader) : Prop :=
  ∀ cs value rest, item cs = some (value, rest) → value.IsOrdered

theorem ReadsOrdered.items? (h : ReadsOrdered item) {values : List Json}
    (hread : items? item bound cs = some (values, rest)) : ∀ value ∈ values, value.IsOrdered := by
  induction bound generalizing cs rest values with
  | zero => cases hread
  | succ bound ih =>
    obtain ⟨⟨first, after⟩, hfirst, hread⟩ := Option.bind_eq_some_iff.1 hread
    have hordered := h _ _ _ hfirst
    dsimp only at hread
    split at hread
    · obtain ⟨rfl, -⟩ := Prod.mk.inj (Option.some.inj hread)
      exact List.forall_mem_singleton.2 hordered
    · obtain ⟨⟨others, _⟩, hothers, hread⟩ := Option.bind_eq_some_iff.1 hread
      obtain ⟨rfl, -⟩ := Prod.mk.inj (Option.some.inj hread)
      exact List.forall_mem_cons.2 ⟨hordered, ih hothers⟩
    · cases hread

theorem ReadsOrdered.fields? (h : ReadsOrdered item) {fields : List (String × Json)}
    (hread : fields? item bound cs = some (fields, rest)) :
    ∀ entry ∈ fields, entry.2.IsOrdered := by
  induction bound generalizing cs rest fields with
  | zero => cases hread
  | succ bound ih =>
    unfold Json.fields? at hread
    -- a quote, the key, a colon and the value come before the rest of the fields
    split at hread
    · obtain ⟨⟨key, afterKey⟩, -, hread⟩ := Option.bind_eq_some_iff.1 hread
      dsimp only at hread
      split at hread
      · obtain ⟨⟨first, after⟩, hfirst, hread⟩ := Option.bind_eq_some_iff.1 hread
        have hordered := h _ _ _ hfirst
        dsimp only at hread
        split at hread
        · obtain ⟨rfl, -⟩ := Prod.mk.inj (Option.some.inj hread)
          exact List.forall_mem_singleton.2 hordered
        · obtain ⟨⟨others, _⟩, hothers, hread⟩ := Option.bind_eq_some_iff.1 hread
          obtain ⟨rfl, -⟩ := Prod.mk.inj (Option.some.inj hread)
          exact List.forall_mem_cons.2 ⟨hordered, ih hothers⟩
        · cases hread
      · cases hread
    · cases hread

/-- What is read is without fields, or it is an array or an object whose parts are read with less
depth. -/
theorem value?_cases {depth : Nat} {value : Json} (h : value? depth cs = some (value, rest)) :
    value.IsOrdered ∨ ∃ below, depth = below + 1 ∧ ∃ bound cs' rest',
      (∃ items, value = .arr items ∧ items? (value? below) bound cs' = some (items, rest')) ∨
        ∃ fields, value = object fields ∧
          fields? (value? below) bound cs' = some (fields, rest') := by
  unfold value? at h
  split at h
  · cases h
  next c after _ =>
  split at h
  · obtain ⟨_, -, heq⟩ := Option.map_eq_some_iff.1 h
    exact .inl ((Prod.mk.inj heq).1 ▸ .str _)
  split at h
  · split at h
    · cases h
    next below =>
    split at h
    · exact .inl ((Prod.mk.inj (Option.some.inj h)).1 ▸ .arr (List.forall_mem_nil _))
    · obtain ⟨⟨items, _⟩, hread, heq⟩ := Option.map_eq_some_iff.1 h
      obtain ⟨rfl, rfl⟩ := Prod.mk.inj heq
      exact .inr ⟨below, rfl, _, _, _, .inl ⟨items, rfl, hread⟩⟩
  split at h
  · split at h
    · cases h
    next below =>
    split at h
    · exact .inl
        ((Prod.mk.inj (Option.some.inj h)).1 ▸ .obj List.Pairwise.nil (List.forall_mem_nil _))
    · obtain ⟨⟨fields, _⟩, hread, heq⟩ := Option.map_eq_some_iff.1 h
      obtain ⟨rfl, rfl⟩ := Prod.mk.inj heq
      exact .inr ⟨below, rfl, _, _, _, .inr ⟨fields, rfl, hread⟩⟩
  -- the rest are scalars
  left
  split_ifs at h
  · obtain ⟨_, -, heq⟩ := Option.map_eq_some_iff.1 h
    exact (Prod.mk.inj heq).1 ▸ .num _
  · obtain ⟨_, -, heq⟩ := Option.map_eq_some_iff.1 h
    exact (Prod.mk.inj heq).1 ▸ .num _
  · exact (Prod.mk.inj (Option.some.inj h)).1 ▸ .null
  · exact (Prod.mk.inj (Option.some.inj h)).1 ▸ .bool true
  · exact (Prod.mk.inj (Option.some.inj h)).1 ▸ .bool false

/-- Values are read in order, however deep they nest. -/
theorem readsOrdered_value? (depth : Nat) : ReadsOrdered (value? depth) := by
  induction depth with
  | zero =>
    intro cs value rest hread
    rcases value?_cases hread with h | ⟨below, hdepth, -⟩
    · exact h
    · cases hdepth
  | succ depth ih =>
    intro cs value rest hread
    rcases value?_cases hread with h | ⟨below, hdepth, bound, cs', rest', hparts⟩
    · exact h
    obtain rfl := Nat.succ.inj hdepth
    rcases hparts with ⟨items, rfl, hitems⟩ | ⟨fields, rfl, hfields⟩
    · exact .arr (ih.items? hitems)
    · exact isOrdered_object (ih.fields? hfields)

end

/-- **The objects of a document that was read are in order.** -/
theorem isOrdered_of_parse? {text : String} {value : Json} (h : parse? text = some value) :
    value.IsOrdered := by
  obtain ⟨⟨read, rest⟩, hread, hend⟩ := Option.bind_eq_some_iff.1 h
  dsimp only at hend
  split at hend
  · obtain rfl := Option.some.inj hend
    exact readsOrdered_value? maxDepth _ _ _ hread
  · cases hend

end BlockScript.Json

import BlockScript.Script.Draft
import BlockScript.Proofs.Dictionary

/-!
# Fresh identifiers

Blocks are numbered by one counter, and a number is written in base 36. Writing is injective
(`base36_injective`), so an identifier that is drawn next is not one of those drawn before. A
draft is `Fresh` when all its blocks have identifiers that were drawn already; then a new block
never takes the place of an old one (`Draft.Fresh.find?_next`).
-/

namespace BlockScript

/-! ### Base 36 -/

/-- The value of a digit of base 36. -/
def base36Value (c : Char) : Nat :=
  if c.toNat < 58 then c.toNat - 48 else c.toNat - 87

/-- A digit to base thirty-six is read back. -/
theorem base36Value_digit : ∀ n < 36, base36Value (base36Digit n) = n := by
  decide

/-- Reading the digits of a number goes on from that number. -/
theorem foldl_base36Onto (bound n : Nat) (tail : List Char) (h : n < bound) :
    (base36Onto bound n tail).foldl (fun m c ↦ 36 * m + base36Value c) 0 =
      tail.foldl (fun m c ↦ 36 * m + base36Value c) n := by
  induction bound generalizing n tail with
  | zero => omega
  | succ bound ih =>
    rw [base36Onto]
    split
    · next hn => rw [List.foldl_cons, base36Value_digit n hn]; simp
    · next hn =>
      rw [ih _ _ (by omega), List.foldl_cons, base36Value_digit _ (by omega)]
      congr 1
      omega

/-- Different numbers are written differently to base thirty-six. -/
theorem base36_injective {m n : Nat} (h : base36 m = base36 n) : m = n := by
  have hchars := String.ofList_injective h
  have hm := foldl_base36Onto (m + 1) m [] (by omega)
  rw [hchars, foldl_base36Onto (n + 1) n [] (by omega)] at hm
  exact hm.symm

/-! ### Block identifiers -/

/-- The identifier of the block drawn as number `n`. -/
def blockId (n : Nat) : BlockId := "blk" ++ "_" ++ base36 n

/-- Different numbers make different block identifiers. -/
theorem blockId_injective {m n : Nat} (h : blockId m = blockId n) : m = n := by
  have hchars := congrArg String.toList h
  simp only [blockId, String.toList_append] at hchars
  exact base36_injective (String.toList_inj.1 (List.append_cancel_left hchars))

namespace Draft

/-- Every block of the draft was numbered by its counter. -/
def Fresh (d : Draft) : Prop :=
  ∀ id b, d.blocks.find? id = some b → ∃ n ≤ d.ids.drawn, id = blockId n

/-- The identifier that the next block gets. -/
def nextId (d : Draft) : BlockId := blockId (d.ids.drawn + 1)

/-- The next identifier is not in use. -/
theorem Fresh.find?_next {d : Draft} (h : d.Fresh) : d.blocks.find? d.nextId = none := by
  by_contra hne
  obtain ⟨b, hb⟩ := Option.ne_none_iff_exists'.1 hne
  obtain ⟨n, hn, heq⟩ := h _ _ hb
  have := blockId_injective heq
  omega

/-- A draft without blocks has all identifiers left. -/
theorem fresh_of_empty {d : Draft} (h : d.blocks = ∅) : d.Fresh := by
  intro id b hb
  rw [h] at hb
  exact absurd hb (by simp)

end Draft

end BlockScript

import BlockScript.Proofs.Digits
import BlockScript.Symbols
import Mathlib.Algebra.Ring.Parity
import Mathlib.Data.Nat.ModEq
import Mathlib.Data.Nat.Prime.Basic

/-!
# Digests of neighbouring texts

A step of a lane mixes a code unit in by exclusive or and multiplies by an odd number modulo
`2 ^ 32`. Both can be undone, so a step loses nothing, neither of the lane
(`Digest.mix_left_injective`) nor of the unit (`Digest.mix_right_injective`). Two rows of units that
are the same but for one unit are in the same state before it, in different ones after it, and stay
apart from there on, by induction over the units that follow (`Digest.lane_ne`).

A lane is shown with a fixed number of digits, from which it can be read back (`Hex.value?_fixed`).
So the digests of two texts that differ in one code unit differ in the group of either lane, and
broadcasts whose names in lower case differ in one code unit have different identifiers
(`Text.digest_separates`). The exclusive or and the sum of the lanes, which are the other two
groups, promise nothing of the kind.
-/

namespace BlockScript

/-! ### Rows that differ in one place -/

/-- Two rows of the same length that differ in exactly one place. -/
def DiffersOnce {α : Type} (xs ys : List α) : Prop :=
  xs.length = ys.length ∧ ∃! i : Nat, xs[i]? ≠ ys[i]?

/-- Before and after the place, the rows are the same. -/
theorem DiffersOnce.split {α : Type} {xs ys : List α} (h : DiffersOnce xs ys) :
    ∃ front x y back, xs = front ++ x :: back ∧ ys = front ++ y :: back ∧ x ≠ y := by
  obtain ⟨hlength, i, hi, hunique⟩ := h
  have hagree : ∀ j, j ≠ i → xs[j]? = ys[j]? := fun j hj ↦ by
    by_contra hne
    exact hj (hunique j hne)
  have hxs : i < xs.length := by
    by_contra hlast
    exact hi (by rw [List.getElem?_eq_none (by omega), List.getElem?_eq_none (by omega)])
  have hys : i < ys.length := hlength ▸ hxs
  -- the rows agree on both sides of the place where they differ
  have hfront : ys.take i = xs.take i := by
    refine List.ext_getElem? fun j ↦ ?_
    rw [List.getElem?_take, List.getElem?_take]
    split
    · exact (hagree j (by omega)).symm
    · rfl
  have hback : ys.drop (i + 1) = xs.drop (i + 1) := by
    refine List.ext_getElem? fun j ↦ ?_
    rw [List.getElem?_drop, List.getElem?_drop]
    exact (hagree _ (by omega)).symm
  refine ⟨xs.take i, xs[i], ys[i], xs.drop (i + 1), ?_, ?_, fun heq ↦ hi ?_⟩
  · rw [← List.drop_eq_getElem_cons, List.take_append_drop]
  · rw [← hfront, ← hback, ← List.drop_eq_getElem_cons, List.take_append_drop]
  · rw [List.getElem?_eq_getElem hxs, List.getElem?_eq_getElem hys, heq]

theorem differsOnce_append_cons {α : Type} {x y : α} (hxy : x ≠ y) (front back : List α) :
    DiffersOnce (front ++ x :: back) (front ++ y :: back) := by
  refine ⟨by simp, front.length, by simpa using hxy, fun j hj ↦ ?_⟩
  by_contra hne
  refine hj ?_
  rw [List.getElem?_append, List.getElem?_append]
  split
  · rfl
  · obtain ⟨k, hk⟩ : ∃ k, j - front.length = k + 1 := ⟨j - front.length - 1, by omega⟩
    rw [hk, List.getElem?_cons_succ, List.getElem?_cons_succ]

namespace Digest

theorem word_injective : Function.Injective word := by
  intro v w h
  have hv : v.toNat < 16 ^ 8 := v.toNat_lt
  have hw : w.toNat < 16 ^ 8 := w.toNat_lt
  have hvalue : some v.toNat = some w.toNat := by
    rw [← Hex.value?_fixed hv, ← Hex.value?_fixed hw]
    exact congrArg Hex.value? h
  exact UInt32.toNat_inj.1 (Option.some.inj hvalue)

@[simp]
theorem length_word (w : UInt32) : (word w).length = 8 :=
  Hex.length_fixed ..

/-! ### Lanes -/

/-- Multiplying by an odd number can be undone modulo a power of two. -/
theorem mul_injective {multiplier : UInt32} (hodd : Odd multiplier.toNat) :
    Function.Injective fun lane : UInt32 ↦ lane * multiplier := by
  intro x y h
  have hmod : x.toNat * multiplier.toNat ≡ y.toNat * multiplier.toNat [MOD 2 ^ 32] := by
    have hnat := congrArg UInt32.toNat h
    rwa [UInt32.toNat_mul, UInt32.toNat_mul] at hnat
  have hcoprime : (2 ^ 32).gcd multiplier.toNat = 1 :=
    Nat.Coprime.pow_left 32 (Nat.coprime_two_left.2 hodd)
  have heq : x.toNat % 2 ^ 32 = y.toNat % 2 ^ 32 := hmod.cancel_right_of_coprime hcoprime
  rw [Nat.mod_eq_of_lt x.toNat_lt, Nat.mod_eq_of_lt y.toNat_lt] at heq
  exact UInt32.toNat_inj.1 heq

variable {multiplier : UInt32}

/-- A step keeps lanes apart. -/
theorem mix_left_injective (hodd : Odd multiplier.toNat) (unit : UInt16) :
    Function.Injective fun lane ↦ mix multiplier lane unit := by
  intro x y h
  exact UInt32.xor_left_inj _ |>.1 (mul_injective hodd h)

/-- A step brings lanes apart when the units differ. -/
theorem mix_right_injective (hodd : Odd multiplier.toNat) (lane : UInt32) :
    Function.Injective (mix multiplier lane) := by
  intro x y h
  exact UInt16.toUInt32_inj.1 (UInt32.xor_right_inj _ |>.1 (mul_injective hodd h))

theorem lane_append (seed multiplier : UInt32) (front back : List UInt16) :
    lane seed multiplier (front ++ back) = lane (lane seed multiplier front) multiplier back :=
  List.foldl_append

/-- A run keeps lanes apart. -/
theorem lane_injective (hodd : Odd multiplier.toNat) (units : List UInt16) :
    Function.Injective fun seed ↦ lane seed multiplier units := by
  induction units with
  | nil => exact fun _ _ h ↦ h
  | cons unit units ih =>
    intro x y h
    have hstep : mix multiplier x unit = mix multiplier y unit := ih h
    exact mix_left_injective hodd unit hstep

/-- Rows of units that are the same but for one unit lead to different lanes. -/
theorem lane_ne (hodd : Odd multiplier.toNat) (seed : UInt32) (front back : List UInt16)
    {x y : UInt16} (hxy : x ≠ y) :
    lane seed multiplier (front ++ x :: back) ≠ lane seed multiplier (front ++ y :: back) := by
  rw [lane_append, lane_append]
  intro h
  have hstep : mix multiplier (lane seed multiplier front) x =
      mix multiplier (lane seed multiplier front) y := lane_injective hodd back h
  exact hxy (mix_right_injective hodd _ hstep)

theorem firstLane_ne (front back : List UInt16) {x y : UInt16} (hxy : x ≠ y) :
    firstLane (front ++ x :: back) ≠ firstLane (front ++ y :: back) :=
  lane_ne (by decide) _ front back hxy

theorem secondLane_ne (front back : List UInt16) {x y : UInt16} (hxy : x ≠ y) :
    secondLane (front ++ x :: back) ≠ secondLane (front ++ y :: back) :=
  lane_ne (by decide) _ front back hxy

end Digest

/-! ### Digests -/

namespace Text

theorem units_append (a b : String) : units (a ++ b) = units a ++ units b := by
  rw [units, String.toList_append, List.flatMap_append]
  rfl

/-- Eight digits of the digest of a text; there are four such groups. -/
def digestGroup (s : String) (i : Nat) : List Char :=
  ((digest s).toList.drop (8 * i)).take 8

theorem digestGroup_zero (s : String) :
    digestGroup s 0 = Digest.word (Digest.firstLane (units s)) := by
  rw [digestGroup, digest, String.toList_ofList, List.append_assoc, List.append_assoc]
  exact List.take_left' (Digest.length_word _)

theorem digestGroup_one (s : String) :
    digestGroup s 1 = Digest.word (Digest.secondLane (units s)) := by
  rw [digestGroup, digest, String.toList_ofList, List.append_assoc, List.append_assoc,
    List.drop_left' (Digest.length_word _)]
  exact List.take_left' (Digest.length_word _)

theorem take_digest (s : String) :
    (digest s).toList.take 16 =
      Digest.word (Digest.firstLane (units s)) ++ Digest.word (Digest.secondLane (units s)) := by
  rw [digest, String.toList_ofList, List.append_assoc]
  exact List.take_left' (by simp)

/-- **Changing one code unit changes both lanes.** The digests of texts that differ in exactly one
UTF-16 code unit differ in their first and in their second group of digits, and broadcasts whose
names in lower case differ so have different identifiers. -/
theorem digest_separates :
    (∀ a b, DiffersOnce (units a) (units b) →
      digestGroup a 0 ≠ digestGroup b 0 ∧ digestGroup a 1 ≠ digestGroup b 1) ∧
    ∀ m n, DiffersOnce (units (lower m)) (units (lower n)) → broadcastId m ≠ broadcastId n := by
  constructor
  · intro a b h
    obtain ⟨front, x, y, back, ha, hb, hxy⟩ := h.split
    rw [digestGroup_zero, digestGroup_zero, digestGroup_one, digestGroup_one, ha, hb]
    exact ⟨fun heq ↦ Digest.firstLane_ne front back hxy (Digest.word_injective heq),
      fun heq ↦ Digest.secondLane_ne front back hxy (Digest.word_injective heq)⟩
  · intro m n h heq
    obtain ⟨front, x, y, back, hm, hn, hxy⟩ := h.split
    have hseeds := String.ofList_injective (String.append_right_inj _ |>.1 heq)
    rw [take_digest, take_digest, units_append, units_append, hm, hn, ← List.append_assoc,
      ← List.append_assoc] at hseeds
    -- The first sixteen digits are the two lanes, and the first lane is enough.
    have hword := (List.append_inj hseeds (by simp)).1
    exact Digest.firstLane_ne _ back hxy (Digest.word_injective hword)

/-- Two characters beyond the first plane share their first code unit, and two spellings of a name
may differ in more than its code units in lower case. -/
theorem digest_separates_pairs :
    DiffersOnce (units "<svg>😀</svg>") (units "<svg>😁</svg>") ∧
      DiffersOnce (units (lower "Étape 1")) (units (lower "éTAPE 2")) ∧
      digestGroup "<svg>😀</svg>" 0 ≠ digestGroup "<svg>😁</svg>" 0 ∧
      digestGroup "<svg>😀</svg>" 1 ≠ digestGroup "<svg>😁</svg>" 1 ∧
      broadcastId "Étape 1" ≠ broadcastId "éTAPE 2" := by
  have hdrawing : DiffersOnce (units "<svg>😀</svg>") (units "<svg>😁</svg>") :=
    differsOnce_append_cons (x := 0xDE00) (y := 0xDE01) (by decide)
      (units "<svg>" ++ [0xD83D]) (units "</svg>")
  have hname : DiffersOnce (units (lower "Étape 1")) (units (lower "éTAPE 2")) := by
    have hfirst : units (lower "Étape 1") = units "étape " ++ 0x31 :: [] := by decide +kernel
    have hsecond : units (lower "éTAPE 2") = units "étape " ++ 0x32 :: [] := by decide +kernel
    rw [hfirst, hsecond]
    exact differsOnce_append_cons (by decide) _ _
  obtain ⟨hone, htwo⟩ := digest_separates.1 _ _ hdrawing
  exact ⟨hdrawing, hname, hone, htwo, digest_separates.2 _ _ hname⟩

end Text

end BlockScript

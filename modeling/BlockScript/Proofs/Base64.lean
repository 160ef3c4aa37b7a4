import BlockScript.Costume.DataUrl
import Mathlib.Algebra.Group.Nat.Defs
import Mathlib.Data.Bool.AllAny
import Mathlib.Data.List.Forall2

/-!
# Base 64 is read back

A text in base 64 is described from its bytes (`Base64.IsTextOf`): each three bytes are four numbers
of six bits, the last one or two bytes are filled up with zeros, each number is a letter of one of
the two alphabets, equals signs may fill up the last group, and white space may stand anywhere.

The reader keeps the letters it has read in one machine word, which it never clears, so that the
first ones leave it at the top. It gives what a reader gives that keeps all of them in a number
without bound (`Base64.decode?_eq_exactFrom`): a byte is taken from the lowest bits, as soon as it
is there, and the bits that are lost are above it. For the exact reader a group of four letters
gives its three bytes, whatever was read before (`Base64.exactFrom_first`,
`Base64.exactFrom_second`, `Base64.exactFrom_third`), so a text gives its bytes by induction over
the groups (`Base64.exactFrom_body`), and a data URL its drawing (`DataUrl.decode_of_isTextOf`).
-/

namespace BlockScript

namespace Base64

/-! ### Texts in base 64 -/

/-- The letters of the numbers below sixty-four. -/
def standard : String := "ABCDEFGHIJKLMNOPQRSTUVWXYZabcdefghijklmnopqrstuvwxyz0123456789+/"

/-- The letters of the numbers below sixty-four that can stand in an address. -/
def urlSafe : String := "ABCDEFGHIJKLMNOPQRSTUVWXYZabcdefghijklmnopqrstuvwxyz0123456789-_"

/-- A character is the letter of a number in one of the alphabets. -/
def IsLetter (n : Nat) (c : Char) : Prop :=
  standard.toList[n]? = some c ∨ urlSafe.toList[n]? = some c

instance (n : Nat) (c : Char) : Decidable (IsLetter n c) :=
  inferInstanceAs (Decidable (_ ∨ _))

/-- The bytes of a text, six bits at a time. -/
def sextets : List UInt8 → List Nat
  | [] => []
  | [a] => [a.toNat / 4, a.toNat % 4 * 16]
  | [a, b] => [a.toNat / 4, a.toNat % 4 * 16 + b.toNat / 16, b.toNat % 16 * 4]
  | a :: b :: c :: rest =>
    a.toNat / 4 :: (a.toNat % 4 * 16 + b.toNat / 16) :: (b.toNat % 16 * 4 + c.toNat / 64) ::
      c.toNat % 64 :: sextets rest

/-- How many equals signs fill up the last group of so many bytes. -/
def padding (count : Nat) : Nat :=
  (3 - count % 3) % 3

/-- The white space of ASCII. -/
def asciiWhite : List Char :=
  [' ', '\t', '\n', '\x0c', '\r']

/-- A text stands for bytes: but for white space, it is their letters with or without padding. -/
def IsTextOf (bytes : List UInt8) (cs : List Char) : Prop :=
  ∃ body count, List.Forall₂ IsLetter (sextets bytes) body ∧
    (count = 0 ∨ count = padding bytes.length) ∧
    cs.filter (· ∉ asciiWhite) = body ++ List.replicate count '='

/-! ### Letters -/

/-- A letter is read as its number. It is neither padding nor skipped. -/
theorem IsLetter.read {n : Nat} {c : Char} (h : IsLetter n c) :
    c ≠ '=' ∧ isSkipped c = false ∧ (sextet? c).map UInt32.toNat = some n := by
  have hletters : ∀ n < 64, (standard.toList[n]?.toList ++ urlSafe.toList[n]?.toList).all fun c ↦
      c ≠ '=' ∧ isSkipped c = false ∧ (sextet? c).map UInt32.toNat = some n := by
    decide +kernel
  have hmem : c ∈ standard.toList[n]?.toList ++ urlSafe.toList[n]?.toList := by
    rcases h with h | h <;> simp [h]
  have hn : n < 64 := by
    rcases h with h | h <;> exact (List.getElem?_eq_some_iff.1 h).1
  exact List.all_iff_forall_prop.1 (hletters n hn) c hmem

/-- What is skipped is the white space of ASCII. -/
theorem isSkipped_eq (c : Char) : isSkipped c = decide (c ∈ asciiWhite) := by
  have htwelve : c.toNat = 12 ↔ c = '\x0c' :=
    ⟨fun h ↦ Char.ext (UInt32.toNat_inj.1 h), fun h ↦ h ▸ rfl⟩
  rw [Bool.eq_iff_iff]
  simp only [isSkipped, asciiWhite, Bool.or_eq_true, beq_iff_eq, htwelve, decide_eq_true_eq,
    List.mem_cons, List.not_mem_nil, or_false]
  tauto

/-- A character has at most six bits. -/
theorem sextet?_lt {c : Char} {value : UInt32} (h : sextet? c = some value) :
    value.toNat < 64 := by
  have hA : 'A'.val.toNat = 65 ∧ 'Z'.val.toNat = 90 := by decide
  have ha : 'a'.val.toNat = 97 ∧ 'z'.val.toNat = 122 := by decide
  have h0 : '0'.val.toNat = 48 ∧ '9'.val.toNat = 57 := by decide
  simp only [sextet?, Char.le_def, UInt32.le_iff_toNat_le] at h
  split_ifs at h <;> obtain rfl := Option.some.inj h
  · simp only [UInt32.toNat_sub, UInt32.reduceToNat]
    omega
  · simp only [UInt32.toNat_sub, UInt32.reduceToNat]
    omega
  · simp only [UInt32.toNat_add, UInt32.reduceToNat]
    omega
  · decide
  · decide

/-! ### The machine word -/

/-- Another six bits come into the machine word from below. -/
theorem toNat_push (word : UInt32) {value : UInt32} (h : value.toNat < 64) :
    (word <<< 6 ||| value).toNat = (word.toNat * 64 + value.toNat) % 2 ^ 32 := by
  have hshift : (word <<< 6).toNat = (word.toNat % 2 ^ 26) <<< 6 := by
    simp only [UInt32.toNat_shiftLeft, UInt32.reduceToNat, Nat.reduceMod, Nat.shiftLeft_eq]
    omega
  rw [UInt32.toNat_or, hshift, ← Nat.shiftLeft_add_eq_or_of_lt h, Nat.shiftLeft_eq]
  omega

/-- The byte above the lowest bits of the machine word. -/
theorem toUInt8_shiftRight (word : UInt32) {k : Nat} (h : k < 32) :
    (word >>> UInt32.ofNat k).toUInt8 = UInt8.ofNat (word.toNat / 2 ^ k) := by
  apply UInt8.toNat_inj.1
  have hk : (UInt32.ofNat k).toNat % 32 = k := by
    rw [UInt32.toNat_ofNat']
    omega
  rw [UInt32.toNat_toUInt8, UInt32.toNat_shiftRight, hk, Nat.shiftRight_eq_div_pow,
    UInt8.toNat_ofNat']

/-- The bits that a machine word has lost are above the byte. -/
theorem ofNat_mod_div (n : Nat) {k : Nat} (h : k ≤ 24) :
    UInt8.ofNat (n % 2 ^ 32 / 2 ^ k) = UInt8.ofNat (n / 2 ^ k) := by
  apply UInt8.toNat_inj.1
  have hpow : 2 ^ 32 = 2 ^ k * 2 ^ (32 - k) := by
    rw [← Nat.pow_add, Nat.add_sub_of_le (by omega)]
  have hdvd : 2 ^ 8 ∣ 2 ^ (32 - k) := Nat.pow_dvd_pow 2 (by omega)
  rw [UInt8.toNat_ofNat', UInt8.toNat_ofNat', hpow, Nat.mod_mul_right_div_self,
    Nat.mod_mod_of_dvd _ hdvd]

/-! ### The exact reader -/

/-- The bytes of a text, given the number that all characters so far make, of which the lowest
`bits` bits are not used yet. -/
def exactFrom (number bits : Nat) : List Char → Option (List UInt8)
  | [] => some []
  | c :: cs =>
    if c = '=' then some []
    else if isSkipped c then exactFrom number bits cs
    else match sextet? c with
      | none => none
      | some value =>
        let number := number * 64 + value.toNat
        if bits + 6 ≥ 8 then
          (exactFrom number (bits - 2) cs).map (UInt8.ofNat (number / 2 ^ (bits - 2)) :: ·)
        else exactFrom number (bits + 6) cs

/-- With the lowest bits of the number in its machine word, the reader gives what the exact reader
gives. -/
theorem decodeFrom_eq_exactFrom (cs : List Char) {word : UInt32} {number bits : Nat}
    (hword : word.toNat = number % 2 ^ 32) (hbits : bits < 8) :
    decodeFrom word bits cs = exactFrom number bits cs := by
  induction cs generalizing word number bits with
  | nil => rfl
  | cons c cs ih =>
    have hletter : ∀ value, sextet? c = some value →
        (word <<< 6 ||| value).toNat = (number * 64 + value.toNat) % 2 ^ 32 := by
      intro value hvalue
      rw [toNat_push word (sextet?_lt hvalue), hword]
      omega
    rw [decodeFrom, exactFrom, ih hword hbits]
    rcases hvalue : sextet? c with - | value
    · rfl
    · have hpush := hletter value hvalue
      congr 2
      dsimp only
      split_ifs with hbyte
      · rw [toUInt8_shiftRight _ (by omega), hpush, ofNat_mod_div _ (by omega), ih hpush (by omega)]
      · exact ih hpush (by omega)

/-- The machine word may overflow: the bytes are those of the exact reader. -/
theorem decode?_eq_exactFrom (cs : List Char) : decode? cs = exactFrom 0 0 cs :=
  decodeFrom_eq_exactFrom cs rfl (by decide)

/-- White space makes no difference. -/
theorem exactFrom_filter (number bits : Nat) (cs : List Char) :
    exactFrom number bits (cs.filter (· ∉ asciiWhite)) = exactFrom number bits cs := by
  induction cs generalizing number bits with
  | nil => rfl
  | cons c cs ih =>
    by_cases hwhite : c ∈ asciiWhite
    · have hskip : isSkipped c = true := by simpa [isSkipped_eq] using hwhite
      have hend : c ≠ '=' := by
        rintro rfl
        exact absurd hwhite (by decide)
      rw [List.filter_cons_of_neg (by simpa using hwhite), ih, exactFrom, if_neg hend, if_pos hskip]
    · rw [List.filter_cons_of_pos (by simpa using hwhite), exactFrom, exactFrom]
      simp only [ih]

/-- Padding ends the text. -/
theorem exactFrom_replicate (number bits count : Nat) :
    exactFrom number bits (List.replicate count '=') = some [] := by
  cases count with
  | zero => rfl
  | succ count => rfl

/-- A letter brings six bits, and with them a byte if two were left. -/
theorem exactFrom_cons {n : Nat} {c : Char} (h : IsLetter n c) (number bits : Nat)
    (cs : List Char) :
    exactFrom number bits (c :: cs) =
      if bits + 6 ≥ 8 then
        (exactFrom (number * 64 + n) (bits - 2) cs).map
          (UInt8.ofNat ((number * 64 + n) / 2 ^ (bits - 2)) :: ·)
      else exactFrom (number * 64 + n) (bits + 6) cs := by
  obtain ⟨hend, hskip, hvalue⟩ := h.read
  obtain ⟨value, hsextet, rfl⟩ := Option.map_eq_some_iff.1 hvalue
  simp [exactFrom, hend, hskip, hsextet]

/-! ### Groups of letters

Between two letters of a group the lowest bits of the number are the part of a byte that was read
already. What is above them was read before and makes no difference. -/

/-- Two letters bring the first byte of a group, and the upper half of the second one. -/
theorem exactFrom_first {a : UInt8} {upper : Nat} {w x : Char} (hupper : upper < 16)
    (hw : IsLetter (a.toNat / 4) w) (hx : IsLetter (a.toNat % 4 * 16 + upper) x) (number : Nat) :
    ∃ next, next % 16 = upper ∧ ∀ cs,
      exactFrom number 0 (w :: x :: cs) = (exactFrom next 4 cs).map (a :: ·) := by
  have ha := a.toNat_lt
  refine ⟨(number * 64 + a.toNat / 4) * 64 + (a.toNat % 4 * 16 + upper), by omega,
    fun cs ↦ ?_⟩
  have hbyte : UInt8.ofNat
      (((number * 64 + a.toNat / 4) * 64 + (a.toNat % 4 * 16 + upper)) / 2 ^ 4) = a := by
    apply UInt8.toNat_inj.1
    rw [UInt8.toNat_ofNat']
    omega
  rw [exactFrom_cons hw, if_neg (by omega), exactFrom_cons hx, if_pos (by omega), hbyte]

/-- With the upper half there, a letter brings the second byte of a group, and the two upper bits of
the third one. -/
theorem exactFrom_second {b : UInt8} {upper number : Nat} {y : Char} (hupper : upper < 4)
    (hnumber : number % 16 = b.toNat / 16) (hy : IsLetter (b.toNat % 16 * 4 + upper) y) :
    ∃ next, next % 4 = upper ∧ ∀ cs,
      exactFrom number 4 (y :: cs) = (exactFrom next 2 cs).map (b :: ·) := by
  have hb := b.toNat_lt
  refine ⟨number * 64 + (b.toNat % 16 * 4 + upper), by omega, fun cs ↦ ?_⟩
  have hbyte : UInt8.ofNat ((number * 64 + (b.toNat % 16 * 4 + upper)) / 2 ^ 2) = b := by
    apply UInt8.toNat_inj.1
    rw [UInt8.toNat_ofNat']
    omega
  rw [exactFrom_cons hy, if_pos (by omega), hbyte]

/-- With the two upper bits there, a letter brings the third byte of a group. -/
theorem exactFrom_third {c : UInt8} {number : Nat} {z : Char}
    (hnumber : number % 4 = c.toNat / 64) (hz : IsLetter (c.toNat % 64) z) :
    ∃ next, ∀ cs, exactFrom number 2 (z :: cs) = (exactFrom next 0 cs).map (c :: ·) := by
  have hc := c.toNat_lt
  refine ⟨number * 64 + c.toNat % 64, fun cs ↦ ?_⟩
  have hbyte : UInt8.ofNat ((number * 64 + c.toNat % 64) / 2 ^ 0) = c := by
    apply UInt8.toNat_inj.1
    rw [UInt8.toNat_ofNat']
    omega
  rw [exactFrom_cons hz, if_pos (by omega), hbyte]

/-- The letters of bytes, with any padding, give the bytes. -/
theorem exactFrom_body {bytes : List UInt8} {body : List Char}
    (h : List.Forall₂ IsLetter (sextets bytes) body) (number count : Nat) :
    exactFrom number 0 (body ++ List.replicate count '=') = some bytes := by
  induction bytes using sextets.induct generalizing body number with
  | case1 =>
    cases h
    exact exactFrom_replicate number 0 count
  | case2 a =>
    -- the last group may have one byte or two, with padding in place of the missing letters
    obtain _ | ⟨hw, _ | ⟨hx, ⟨⟩⟩⟩ := h
    obtain ⟨next, -, hfirst⟩ := exactFrom_first (by decide : 0 < 16) hw hx number
    simp [hfirst, exactFrom_replicate]
  | case3 a b =>
    have hb := b.toNat_lt
    obtain _ | ⟨hw, _ | ⟨hx, _ | ⟨hy, ⟨⟩⟩⟩⟩ := h
    obtain ⟨next, hnext, hfirst⟩ := exactFrom_first (by omega) hw hx number
    obtain ⟨last, -, hsecond⟩ := exactFrom_second (by decide : 0 < 4) hnext hy
    simp [hfirst, hsecond, exactFrom_replicate]
  | case4 a b c rest ih =>
    have hb := b.toNat_lt
    have hc := c.toNat_lt
    obtain _ | ⟨hw, _ | ⟨hx, _ | ⟨hy, _ | ⟨hz, hrest⟩⟩⟩⟩ := h
    obtain ⟨next, hnext, hfirst⟩ := exactFrom_first (by omega) hw hx number
    obtain ⟨third, hthird, hsecond⟩ := exactFrom_second (by omega) hnext hy
    obtain ⟨last, hlast⟩ := exactFrom_third hthird hz
    simp [hfirst, hsecond, hlast, ih hrest]

/-- The letters of bytes, with padding or without, and with white space between them, give the
bytes. -/
theorem exactFrom_of_isTextOf {bytes : List UInt8} {cs : List Char} (h : IsTextOf bytes cs) :
    exactFrom 0 0 cs = some bytes := by
  obtain ⟨body, count, hbody, -, hcs⟩ := h
  rw [← exactFrom_filter, hcs, exactFrom_body hbody]

end Base64

namespace DataUrl

/-- A data URL whose payload is a text in base 64 of the bytes of a drawing holds the drawing, and
the machine word may overflow meanwhile. -/
theorem decode_of_isTextOf {s b : String} (h : Base64.IsTextOf (Text.utf8 s) b.toList) :
    decode ("data:image/svg+xml;base64," ++ b) = .ok s ∧
      ∀ cs, Base64.decode? cs = Base64.exactFrom 0 0 cs := by
  refine ⟨?_, Base64.decode?_eq_exactFrom⟩
  have hsplit : Chars.splitFirst? [','] ("data:image/svg+xml;base64,".toList ++ b.toList) =
      some ("data:image/svg+xml;base64".toList, b.toList) :=
    rfl
  have hmarked : Chars.contains ";base64".toList
      ("data:image/svg+xml;base64".toList.map Text.asciiLowerChar) = true := by
    decide
  have hbytes : Base64.decode? b.toList = some (Text.utf8 s) := by
    rw [Base64.decode?_eq_exactFrom, Base64.exactFrom_of_isTextOf h]
  rw [decode, String.toList_append, hsplit]
  simp only [hmarked, if_true, decodeBase64, hbytes, Text.ofUtf8?_utf8]

/-- Sixty bits go through a machine word of thirty-two: seven bytes in letters of both alphabets,
with white space and padding. -/
theorem decode_of_isTextOf_overflow :
    Base64.IsTextOf (Text.utf8 "~~~ÿÿ") "fn5-\nw7/D vw=\t=".toList ∧
      decode ("data:image/svg+xml;base64," ++ "fn5-\nw7/D vw=\t=") = .ok "~~~ÿÿ" := by
  have h : Base64.IsTextOf (Text.utf8 "~~~ÿÿ") "fn5-\nw7/D vw=\t=".toList := by
    have hbytes : Text.utf8 "~~~ÿÿ" = [126, 126, 126, 195, 191, 195, 191] := by decide +kernel
    refine ⟨['f', 'n', '5', '-', 'w', '7', '/', 'D', 'v', 'w'], 2, ?_, .inr ?_, by decide⟩
    · simp only [hbytes, Base64.sextets, List.forall₂_cons, List.forall₂_nil_left_iff]
      decide
    · rw [hbytes]
      rfl
  exact ⟨h, (decode_of_isTextOf h).1⟩

end DataUrl

end BlockScript

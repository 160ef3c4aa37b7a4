import BlockScript.Proofs.Escapes

/-!
# What the reader of percent escapes takes

A text with escapes is read from left to right: a character other than the percent sign stands for
its own bytes, and a percent sign with the two characters after it for one byte. `Percent.Stands`
says so by rules, with the escapes that are taken as a parameter. A well-formed escape is two
hexadecimal digits (`Percent.IsPair`). The reader takes one form more, a plus sign and one digit
(`Percent.IsTaken`), as a reader of numbers does; nothing writes it.

Every text stands for bytes, or comes after a good start to a percent sign without an escape
(`Percent.stands_or_stuck`). The reader gives the bytes in the first case
(`Percent.Stands.decodeBytes_eq`) and an error in the second, which depends on whether the two bytes
behind the sign are whole characters (`Percent.decodeBytes_invalid`,
`Percent.decodeBytes_truncated`). So it is known for each text what comes out
(`Percent.decode_outcome`), and the well-formed texts are those that are read and have no plus sign
behind a percent sign.
-/

namespace BlockScript

@[simp]
theorem Chars.byteLength_nil : byteLength [] = 0 := rfl

@[simp]
theorem Chars.byteLength_cons (c : Char) (cs : List Char) :
    byteLength (c :: cs) = c.utf8Size + byteLength cs := rfl

/-- A row of bytes is read as a text if and only if it is the row of bytes of that text. -/
theorem Text.ofUtf8?_eq_some_iff {bytes : List UInt8} {s : String} :
    ofUtf8? bytes = some s ↔ utf8 s = bytes := by
  constructor
  · intro h
    rw [ofUtf8?, String.fromUTF8?] at h
    split at h
    · next hvalid =>
      obtain rfl := Option.some.inj h
      have harray : (utf8 (String.fromUTF8 bytes.toByteArray hvalid)).toByteArray =
          bytes.toByteArray :=
        toByteArray_utf8 _
      have hdata := congrArg (fun a : ByteArray ↦ a.data.toList) harray
      simpa using hdata
    · cases h
  · rintro rfl
    exact ofUtf8?_utf8 s

namespace Percent

/-! ### Escapes -/

/-- The two digits of a byte. -/
inductive IsPair : List Char → UInt8 → Prop
  | intro {high low : Nat} {a b : Char} (upper : Hex.IsDigit high a) (lower : Hex.IsDigit low b) :
    IsPair [a, b] (UInt8.ofNat (16 * high + low))

/-- What is taken for the byte of an escape: its two digits, or a plus sign and a single digit. -/
inductive IsTaken : List Char → UInt8 → Prop
  | pair {digits : List Char} {byte : UInt8} (good : IsPair digits byte) : IsTaken digits byte
  | signed {low : Nat} {b : Char} (digit : Hex.IsDigit low b) : IsTaken ['+', b] (UInt8.ofNat low)

/-- A text stands for bytes when it is read from left to right, and what is behind a percent sign
is of the kind given. -/
inductive Stands (escape : List Char → UInt8 → Prop) : List Char → List UInt8 → Prop
  | nil : Stands escape [] []
  | char {c : Char} {cs : List Char} {bytes : List UInt8} (plain : c ≠ '%')
    (rest : Stands escape cs bytes) : Stands escape (c :: cs) (String.utf8EncodeChar c ++ bytes)
  | escape {a b : Char} {cs : List Char} {byte : UInt8} {bytes : List UInt8}
    (good : escape [a, b] byte) (rest : Stands escape cs bytes) :
    Stands escape ('%' :: a :: b :: cs) (byte :: bytes)

/-- No escape is behind a percent sign that stands in front of a text. -/
def IsStuck (after : List Char) : Prop :=
  ∀ digits rest, after = digits ++ rest → ∀ byte, ¬ IsTaken digits byte

theorem IsTaken.exists_eq_pair {digits : List Char} {byte : UInt8} (h : IsTaken digits byte) :
    ∃ a b, digits = [a, b] ∧ a.utf8Size = 1 ∧ b.utf8Size = 1 := by
  cases h with
  | pair h =>
    obtain ⟨upper, lower⟩ := h
    exact ⟨_, _, rfl, upper.plain.1, lower.plain.1⟩
  | signed h => exact ⟨_, _, rfl, rfl, h.plain.1⟩

theorem byte?_eq_some_iff {a b : Char} {byte : UInt8} :
    byte? a b = some byte ↔ IsTaken [a, b] byte := by
  constructor
  · intro h
    rw [byte?] at h
    split at h
    · next hplus =>
      obtain rfl := beq_iff_eq.1 hplus
      obtain ⟨low, hlow, rfl⟩ := Option.map_eq_some_iff.1 h
      exact .signed (Hex.digitValue?_eq_some_iff.1 hlow)
    · obtain ⟨high, hhigh, h⟩ := Option.bind_eq_some_iff.1 h
      obtain ⟨low, hlow, h⟩ := Option.bind_eq_some_iff.1 h
      obtain rfl := Option.some.inj h
      exact .pair ⟨Hex.digitValue?_eq_some_iff.1 hhigh, Hex.digitValue?_eq_some_iff.1 hlow⟩
  · intro h
    cases h with
    | pair h =>
      obtain ⟨upper, lower⟩ := h
      simp [byte?, upper.plain.2.1, Hex.digitValue?_eq_some_iff.2 upper,
        Hex.digitValue?_eq_some_iff.2 lower]
    | signed h => simp [byte?, Hex.digitValue?_eq_some_iff.2 h]

/-! ### Reading -/

theorem decodeBytes_escape_of_isTaken {a b : Char} {byte : UInt8} (h : IsTaken [a, b] byte)
    (cs : List Char) : decodeBytes ('%' :: a :: b :: cs) = (byte :: ·) <$> decodeBytes cs := by
  obtain ⟨_, _, hdigits, ha, hb⟩ := h.exists_eq_pair
  obtain ⟨rfl, rfl⟩ : a = _ ∧ b = _ := by simpa using hdigits
  simp [decodeBytes, ha, hb, byte?_eq_some_iff.2 h]

/-- Reading goes on behind a text that stands for bytes. -/
theorem Stands.decodeBytes_append {front : List Char} {bytes : List UInt8}
    (h : Stands IsTaken front bytes) (rest : List Char) :
    decodeBytes (front ++ rest) = (bytes ++ ·) <$> decodeBytes rest := by
  induction h with
  | nil => simp
  | char plain _ ih =>
    rw [List.cons_append, decodeBytes_cons_of_ne plain, ih]
    simp
  | escape good _ ih =>
    rw [List.cons_append, List.cons_append, List.cons_append, decodeBytes_escape_of_isTaken good,
      ih]
    simp

/-- A text stands for bytes, or comes after a good start to a percent sign without an escape. -/
theorem stands_or_stuck : ∀ cs : List Char, (∃ bytes, Stands IsTaken cs bytes) ∨
    ∃ front bytes after, cs = front ++ '%' :: after ∧ Stands IsTaken front bytes ∧ IsStuck after
  | [] => .inl ⟨[], .nil⟩
  | c :: cs => by
    by_cases hc : c = '%'
    · subst hc
      by_cases hstuck : IsStuck cs
      · exact .inr ⟨[], [], cs, rfl, .nil, hstuck⟩
      · -- an escape is behind the sign, and reading goes on behind the escape
        simp only [IsStuck, not_forall, not_not] at hstuck
        obtain ⟨digits, rest, rfl, byte, htaken⟩ := hstuck
        obtain ⟨a, b, rfl, -, -⟩ := htaken.exists_eq_pair
        rcases stands_or_stuck rest with ⟨bytes, h⟩ | ⟨front, bytes, after, rfl, h, hafter⟩
        · exact .inl ⟨byte :: bytes, .escape htaken h⟩
        · exact .inr ⟨'%' :: a :: b :: front, byte :: bytes, after, rfl, .escape htaken h, hafter⟩
    · rcases stands_or_stuck cs with ⟨bytes, h⟩ | ⟨front, bytes, after, rfl, h, hafter⟩
      · exact .inl ⟨_, .char hc h⟩
      · exact .inr ⟨c :: front, _, after, rfl, .char hc h, hafter⟩
termination_by cs => cs.length

/-- Two bytes are one character or two. -/
theorem byteLength_eq_two {digits : List Char} (h : Chars.byteLength digits = 2) :
    (∃ a, digits = [a] ∧ a.utf8Size = 2) ∨
      ∃ a b, digits = [a, b] ∧ a.utf8Size = 1 ∧ b.utf8Size = 1 := by
  match digits with
  | [] => simp at h
  | [a] => exact .inl ⟨a, rfl, by simpa using h⟩
  | [a, b] =>
    have ha := a.utf8Size_pos
    have hb := b.utf8Size_pos
    simp only [Chars.byteLength_cons, Chars.byteLength_nil] at h
    exact .inr ⟨a, b, rfl, by omega, by omega⟩
  | a :: b :: c :: cs =>
    have ha := a.utf8Size_pos
    have hb := b.utf8Size_pos
    have hc := c.utf8Size_pos
    simp only [Chars.byteLength_cons] at h
    omega

/-- What is behind a percent sign is named in the error when it fills the two places. -/
theorem decodeBytes_invalid {digits rest : List Char} (h : IsStuck (digits ++ rest))
    (hlength : Chars.byteLength digits = 2) :
    decodeBytes ('%' :: (digits ++ rest)) = .error (.invalid (String.ofList digits)) := by
  rcases byteLength_eq_two hlength with ⟨a, rfl, ha⟩ | ⟨a, b, rfl, ha, hb⟩
  · cases rest <;> simp [decodeBytes, ha]
  · have hnone : byte? a b = none := Option.eq_none_iff_forall_ne_some.2 fun byte hbyte ↦
      h _ rest rfl byte (byte?_eq_some_iff.1 hbyte)
    simp [decodeBytes, ha, hb, hnone]

/-- Otherwise there is too little behind it, or the places end inside a character. -/
theorem decodeBytes_truncated {after : List Char}
    (h : ∀ digits rest, after = digits ++ rest → Chars.byteLength digits ≠ 2) :
    decodeBytes ('%' :: after) = .error .truncated := by
  match after with
  | [] => rfl
  | [a] =>
    have ha : a.utf8Size ≠ 2 := by simpa using h [a] [] rfl
    simp [decodeBytes, ha]
  | a :: b :: rest =>
    have ha : a.utf8Size ≠ 2 := by simpa using h [a] (b :: rest) rfl
    have hab : a.utf8Size + b.utf8Size ≠ 2 := by simpa using h [a, b] rest rfl
    have hsizes : ¬ (a.utf8Size = 1 ∧ b.utf8Size = 1) := by omega
    simp [decodeBytes, ha, hsizes]

/-- Why a text cannot be read. -/
inductive Fails (cs : List Char) : EscapeError → Prop
  | truncated {front after : List Char} {bytes : List UInt8} (text : cs = front ++ '%' :: after)
    (start : Stands IsTaken front bytes)
    (short : ∀ digits rest, after = digits ++ rest → Chars.byteLength digits ≠ 2) :
    Fails cs .truncated
  | invalid {front digits rest : List Char} {bytes : List UInt8}
    (text : cs = front ++ '%' :: (digits ++ rest)) (start : Stands IsTaken front bytes)
    (places : Chars.byteLength digits = 2) (stuck : IsStuck (digits ++ rest)) :
    Fails cs (.invalid (String.ofList digits))
  | notUtf8 {bytes : List UInt8} (all : Stands IsTaken cs bytes)
    (invalid : ∀ text, Text.utf8 text ≠ bytes) : Fails cs .notUtf8

theorem Stands.decodeBytes_eq {cs : List Char} {bytes : List UInt8} (h : Stands IsTaken cs bytes) :
    decodeBytes cs = .ok bytes := by
  have happend := h.decodeBytes_append []
  simpa [decodeBytes] using happend

/-- An error behind a good start is the error of the whole text. -/
theorem Stands.decodeBytes_error {front rest : List Char} {bytes : List UInt8} {e : EscapeError}
    (h : Stands IsTaken front bytes) (hrest : decodeBytes rest = .error e) :
    decodeBytes (front ++ rest) = .error e := by
  rw [h.decodeBytes_append, hrest]
  rfl

theorem decode_eq (s : String) : decode s =
    (decodeBytes s.toList).bind fun bytes ↦ (Text.ofUtf8? bytes).elim (.error .notUtf8) .ok := by
  rw [decode]
  cases decodeBytes s.toList with
  | error e => rfl
  | ok bytes => cases h : Text.ofUtf8? bytes <;> simp [bind, Except.bind, h] <;> rfl

theorem Stands.decode_eq_ok {s t : String} (h : Stands IsTaken s.toList (Text.utf8 t)) :
    decode s = .ok t := by
  simp [decode_eq, h.decodeBytes_eq, Except.bind, Text.ofUtf8?_utf8]

theorem Fails.decode_eq_error {s : String} {e : EscapeError} (h : Fails s.toList e) :
    decode s = .error e := by
  cases h with
  | truncated text start short =>
    have h := start.decodeBytes_error (decodeBytes_truncated short)
    rw [decode_eq, text, h]
    rfl
  | invalid text start places stuck =>
    have h := start.decodeBytes_error (decodeBytes_invalid stuck places)
    rw [decode_eq, text, h]
    rfl
  | @notUtf8 bytes all invalid =>
    have hnone : Text.ofUtf8? bytes = none := Option.eq_none_iff_forall_ne_some.2 fun text htext ↦
      invalid text (Text.ofUtf8?_eq_some_iff.1 htext)
    rw [decode_eq, all.decodeBytes_eq]
    simp [Except.bind, hnone]

/-- Every text stands for the bytes of a text, or fails. -/
theorem stands_or_fails (s : String) :
    (∃ t, Stands IsTaken s.toList (Text.utf8 t)) ∨ ∃ e, Fails s.toList e := by
  rcases stands_or_stuck s.toList with ⟨bytes, h⟩ | ⟨front, bytes, after, htext, h, hstuck⟩
  · by_cases hvalid : ∃ t, Text.utf8 t = bytes
    · obtain ⟨t, rfl⟩ := hvalid
      exact .inl ⟨t, h⟩
    · exact .inr ⟨_, .notUtf8 h (not_exists.1 hvalid)⟩
  · by_cases hplaces : ∃ digits rest, after = digits ++ rest ∧ Chars.byteLength digits = 2
    · obtain ⟨digits, rest, rfl, hlength⟩ := hplaces
      exact .inr ⟨_, .invalid htext h hlength hstuck⟩
    · refine .inr ⟨_, .truncated htext h fun digits rest hafter hlength ↦ ?_⟩
      exact hplaces ⟨digits, rest, hafter, hlength⟩

/-! ### Well-formed escapes -/

theorem Stands.mono {escape escape' : List Char → UInt8 → Prop} {cs : List Char}
    {bytes : List UInt8} (hmono : ∀ digits byte, escape digits byte → escape' digits byte)
    (h : Stands escape cs bytes) : Stands escape' cs bytes := by
  induction h with
  | nil => exact .nil
  | char plain _ ih => exact .char plain ih
  | escape good _ ih => exact .escape (hmono _ _ good) ih

/-- In a well-formed text no plus sign is behind a percent sign. -/
theorem Stands.no_sign {cs : List Char} {bytes : List UInt8} (h : Stands IsPair cs bytes) :
    ¬ ['%', '+'] <:+: cs := by
  induction h with
  | nil => simp
  | char plain _ ih =>
    rw [List.infix_cons_iff, List.cons_prefix_cons]
    exact fun h ↦ h.elim (fun h ↦ plain h.1.symm) ih
  | escape good _ ih =>
    obtain ⟨upper, lower⟩ := good
    simp only [List.infix_cons_iff, List.cons_prefix_cons]
    rintro (⟨-, hplus, -⟩ | ⟨hsign, -⟩ | ⟨hsign, -⟩ | hrest)
    · exact upper.plain.2.1 hplus.symm
    · exact upper.plain.2.2 hsign.symm
    · exact lower.plain.2.2 hsign.symm
    · exact ih hrest

/-- A text that is read is well formed when no plus sign is behind a percent sign. -/
theorem Stands.isPair {cs : List Char} {bytes : List UInt8} (h : Stands IsTaken cs bytes)
    (hsign : ¬ ['%', '+'] <:+: cs) : Stands IsPair cs bytes := by
  induction h with
  | nil => exact .nil
  | char plain _ ih => exact .char plain (ih fun h ↦ hsign (h.trans (List.suffix_cons _ _).isInfix))
  | @escape a b cs byte bytes good _ ih =>
    have hrest : Stands IsPair cs bytes := ih fun h ↦
      hsign (h.trans (List.suffix_append ['%', a, b] cs).isInfix)
    cases good with
    | pair good => exact .escape good hrest
    | signed => exact absurd (List.prefix_append ['%', '+'] (b :: cs)).isInfix hsign

/-- **What comes of a text with escapes.** It is read, as the text whose bytes it stands for, or
fails, and then the error says why. Reading takes a plus sign and a digit for an escape, and that is
its only liberty: the well-formed texts are those that are read and have no plus sign behind a
percent sign. -/
theorem decode_outcome (s : String) :
    (∀ t, decode s = .ok t ↔ Stands IsTaken s.toList (Text.utf8 t)) ∧
      (∀ e, decode s = .error e ↔ Fails s.toList e) ∧
      ∀ t, Stands IsPair s.toList (Text.utf8 t) ↔
        decode s = .ok t ∧ ¬ ['%', '+'] <:+: s.toList := by
  -- A text does not both stand for the bytes of a text and fail, since it has one result.
  have hok : ∀ t, decode s = .ok t ↔ Stands IsTaken s.toList (Text.utf8 t) := by
    refine fun t ↦ ⟨fun h ↦ ?_, Stands.decode_eq_ok⟩
    rcases stands_or_fails s with ⟨t', ht'⟩ | ⟨e, he⟩
    · have heq := ht'.decode_eq_ok
      rw [h] at heq
      exact Except.ok.inj heq ▸ ht'
    · have heq := he.decode_eq_error
      rw [h] at heq
      cases heq
  refine ⟨hok, fun e ↦ ⟨fun h ↦ ?_, Fails.decode_eq_error⟩, fun t ↦ ⟨fun h ↦ ?_, fun h ↦ ?_⟩⟩
  · rcases stands_or_fails s with ⟨t', ht'⟩ | ⟨e', he'⟩
    · have heq := ht'.decode_eq_ok
      rw [h] at heq
      cases heq
    · have heq := he'.decode_eq_error
      rw [h] at heq
      exact Except.error.inj heq ▸ he'
  · exact ⟨(hok t).2 (h.mono fun _ _ ↦ .pair), h.no_sign⟩
  · exact ((hok t).1 h.1).isPair h.2

example : decode "a%+5" = .ok "a\x05" := by cbv

example : decode "%C3%A9%" = .error .truncated := by cbv

end Percent

end BlockScript

import BlockScript.Costume.Basic
import BlockScript.Proofs.Digits
import BlockScript.Proofs.Phrase
import Mathlib.Data.Bool.AllAny

/-!
# Percent escapes are read back

What `Percent.encode` writes for a byte is either a character that stands for the byte, or a percent
sign with the two digits of the byte, and the reader takes back the byte from either and goes on
with what follows. So the bytes of an encoded text are the bytes of the text
(`Percent.decodeBytes_encode`), and the text itself is read back (`Percent.decode_encode`).

The characters written are ASCII, and none is white space, a double quote or a backslash
(`Percent.plain_of_mem_encode`). So the data URL of a drawing is taken for what it is when it is
used as the source of a costume (`Costume.Source.ofText_ofMarkup`), and it holds the drawing
(`DataUrl.decode_ofMarkup`).
-/

namespace BlockScript

namespace Percent

/-! ### Bytes -/

/-- A byte that stands for itself is the whole of its character, which is no percent sign. -/
theorem utf8EncodeChar_of_isKept :
    ∀ b : UInt8, isKept b = true →
      Char.ofNat b.toNat ≠ '%' ∧ String.utf8EncodeChar (Char.ofNat b.toNat) = [b] := by
  have h : ∀ n < 256, isKept (UInt8.ofNat n) = true →
      Char.ofNat n ≠ '%' ∧ String.utf8EncodeChar (Char.ofNat n) = [UInt8.ofNat n] := by
    decide +kernel
  intro b hb
  have := h b.toNat b.toNat_lt
  rw [UInt8.ofNat_toNat] at this
  exact this hb

/-- What is written for a byte is ASCII, and neither white space nor a mark that would end a quoted
text or change the meaning of what follows it. -/
theorem plain_of_mem_encodeByte :
    ∀ b : UInt8, ∀ c ∈ encodeByte b,
      c.toNat < 128 ∧ Text.isWhite c = false ∧ c ≠ '"' ∧ c ≠ '\\' := by
  have h : ∀ n < 256, (encodeByte (UInt8.ofNat n)).all fun c ↦
      c.toNat < 128 ∧ Text.isWhite c = false ∧ c ≠ '"' ∧ c ≠ '\\' := by
    decide +kernel
  intro b
  have hb := h b.toNat b.toNat_lt
  rw [UInt8.ofNat_toNat] at hb
  exact List.all_iff_forall_prop.1 hb

/-! ### Reading -/

/-- The byte of two digits. -/
theorem byte?_upperDigit {high low : Nat} (hhigh : high < 16) (hlow : low < 16) :
    byte? (Hex.upperDigit high) (Hex.upperDigit low) = some (UInt8.ofNat (16 * high + low)) := by
  have hplus : (Hex.upperDigit high == '+') = false :=
    beq_eq_false_iff_ne.2 (Hex.isDigit_upperDigit hhigh).plain.2.1
  simp [byte?, hplus, Hex.digitValue?_upperDigit, hhigh, hlow]

/-- A character other than the percent sign stands for its bytes. -/
theorem decodeBytes_cons_of_ne {c : Char} (h : c ≠ '%') (cs : List Char) :
    decodeBytes (c :: cs) = (String.utf8EncodeChar c ++ ·) <$> decodeBytes cs := by
  match cs with
  | [] => simp [decodeBytes, h]
  | [a] => simp [decodeBytes, h]
  | a :: b :: rest => simp [decodeBytes, h]

/-- A percent sign with the two digits of a byte stands for the byte. -/
theorem decodeBytes_escape (b : UInt8) (cs : List Char) :
    decodeBytes ('%' :: Hex.upperDigit (b.toNat / 16) :: Hex.upperDigit (b.toNat % 16) :: cs) =
      (b :: ·) <$> decodeBytes cs := by
  have hb : b.toNat < 256 := b.toNat_lt
  have hhigh : b.toNat / 16 < 16 := by omega
  have hlow : b.toNat % 16 < 16 := by omega
  have hbyte : UInt8.ofNat (16 * (b.toNat / 16) + b.toNat % 16) = b := by
    rw [Nat.div_add_mod, UInt8.ofNat_toNat]
  simp [decodeBytes, (Hex.isDigit_upperDigit hhigh).plain.1, (Hex.isDigit_upperDigit hlow).plain.1,
    byte?_upperDigit hhigh hlow, hbyte]

/-- What is written for a byte stands for it, whatever follows. -/
theorem decodeBytes_encodeByte (b : UInt8) (cs : List Char) :
    decodeBytes (encodeByte b ++ cs) = (b :: ·) <$> decodeBytes cs := by
  unfold encodeByte
  split
  · next hkept =>
    obtain ⟨hne, hbytes⟩ := utf8EncodeChar_of_isKept b hkept
    rw [List.singleton_append, decodeBytes_cons_of_ne hne, hbytes]
    rfl
  · exact decodeBytes_escape b cs

/-- What is written for a row of bytes stands for it. -/
theorem decodeBytes_encode (bytes : List UInt8) :
    decodeBytes (bytes.flatMap encodeByte) = .ok bytes := by
  induction bytes with
  | nil => rfl
  | cons b bytes ih =>
    rw [List.flatMap_cons, decodeBytes_encodeByte, ih]
    rfl

/-- A text with its bytes escaped is read back. -/
theorem decode_encode (s : String) : decode (encode s) = .ok s := by
  simp only [decode, encode, String.toList_ofList, decodeBytes_encode, bind, Except.bind,
    Text.ofUtf8?_utf8, pure, Except.pure]

example : decode (encode "a + β = 50%") = .ok "a + β = 50%" := by cbv

/-- An encoded text is ASCII without white space, double quotes and backslashes. -/
theorem plain_of_mem_encode {s : String} {c : Char} (h : c ∈ (encode s).toList) :
    c.toNat < 128 ∧ Text.isWhite c = false ∧ c ≠ '"' ∧ c ≠ '\\' := by
  rw [encode, String.toList_ofList, List.mem_flatMap] at h
  obtain ⟨b, -, hc⟩ := h
  exact plain_of_mem_encodeByte b c hc

end Percent

/-! ### Data URLs -/

namespace DataUrl

/-- The data URL of a drawing holds the drawing. -/
theorem decode_ofMarkup (markup : String) : decode (ofMarkup markup) = .ok markup := by
  have hsplit : ∀ payload : List Char,
      Chars.splitFirst? [','] (header.toList ++ payload) =
        some ("data:image/svg+xml;utf8".toList, payload) :=
    fun _ ↦ rfl
  have hplain : Chars.contains ";base64".toList
      ("data:image/svg+xml;utf8".toList.map Text.asciiLowerChar) = false := by
    decide
  rw [decode, ofMarkup, String.toList_append, hsplit]
  simp only [hplain, Bool.false_eq_true, if_false, String.ofList_toList, Percent.decode_encode]
  rfl

/-- The data URL of a drawing is ASCII without white space, double quotes and backslashes. -/
theorem plain_of_mem_ofMarkup {markup : String} {c : Char} (h : c ∈ (ofMarkup markup).toList) :
    c.toNat < 128 ∧ Text.isWhite c = false ∧ c ≠ '"' ∧ c ≠ '\\' := by
  have hheader : ∀ c ∈ header.toList,
      c.toNat < 128 ∧ Text.isWhite c = false ∧ c ≠ '"' ∧ c ≠ '\\' :=
    List.all_iff_forall_prop.1 (by decide)
  rw [ofMarkup, String.toList_append, List.mem_append] at h
  rcases h with h | h
  · exact hheader c h
  · exact Percent.plain_of_mem_encode h

/-- A text is read back from its escaped form and from its data URL, and the data URL can stand
anywhere: it is ASCII without white space, double quotes and backslashes. -/
theorem decode_ofMarkup_and_plain (s : String) :
    Percent.decode (Percent.encode s) = .ok s ∧
      decode (ofMarkup s) = .ok s ∧
      ∀ c ∈ (ofMarkup s).toList,
        c.toNat < 128 ∧ Text.isWhite c = false ∧ c ≠ '"' ∧ c ≠ '\\' :=
  ⟨Percent.decode_encode s, decode_ofMarkup s, fun _ ↦ plain_of_mem_ofMarkup⟩

example : ofMarkup "a\"\\,\n" = "data:image/svg+xml;utf8,a%22%5C%2C%0A" := by cbv

/-- The data URL of a drawing has no white space at its ends. -/
theorem trim_ofMarkup (markup : String) : Text.trim (ofMarkup markup) = ofMarkup markup := by
  have hwhite : ∀ c ∈ (ofMarkup markup).toList, Text.isWhite c = false :=
    fun _ hc ↦ (plain_of_mem_ofMarkup hc).2.1
  rw [Text.trim, Chars.trim_eq_self (fun c hc ↦ hwhite c (List.mem_of_mem_head? hc))
    (fun c hc ↦ hwhite c (List.mem_of_mem_getLast? hc)), String.ofList_toList]

end DataUrl

namespace Costume

/-- The data URL of a drawing is a data URL. -/
theorem Source.ofText_ofMarkup (markup : String) :
    Source.ofText (DataUrl.ofMarkup markup) = .dataUrl (DataUrl.ofMarkup markup) := by
  have hempty : (DataUrl.ofMarkup markup).isEmpty = false := by
    simp [DataUrl.ofMarkup, DataUrl.header]
  have hdata : Text.startsWith (DataUrl.ofMarkup markup) "data:" = true := by
    rw [Text.startsWith, DataUrl.ofMarkup, String.toList_append]
    rfl
  simp only [Source.ofText, DataUrl.trim_ofMarkup, hempty, hdata, Bool.false_eq_true, if_false,
    if_true]

/-- The data URL of a drawing has the costume of the text, whatever files there are. -/
theorem resolve_ofMarkup {m : Type → Type} [Monad m] (fetch : Option (FileReader m))
    (markup : String) : resolve fetch (DataUrl.ofMarkup markup) = pure (ofText markup) := by
  have hdecoded : (DataUrl.decode (DataUrl.ofMarkup markup) >>= ofText) = ofText markup := by
    simp only [DataUrl.decode_ofMarkup, bind, Except.bind]
  simp only [resolve, Source.ofText_ofMarkup, hdecoded]

end Costume

end BlockScript

import BlockScript.Text.Utf8

/-!
# Base 64

Reading bytes that are written six bits to a character, in either of the two alphabets. White
space between the characters is skipped, and the first equals sign ends the text.
-/

namespace BlockScript.Base64

/-- The six bits of a character. -/
def sextet? (c : Char) : Option UInt32 :=
  if 'A' ≤ c ∧ c ≤ 'Z' then some (c.val - 65)
  else if 'a' ≤ c ∧ c ≤ 'z' then some (c.val - 71)
  else if '0' ≤ c ∧ c ≤ '9' then some (c.val + 4)
  else if c = '+' ∨ c = '-' then some 62
  else if c = '/' ∨ c = '_' then some 63
  else none

/-- Whether a character between others is skipped. -/
def isSkipped (c : Char) : Bool :=
  c == ' ' || c == '\t' || c == '\n' || c == '\r' || c.toNat == 12

/-- The bytes of a text, given the bits that wait for further ones: the last characters in one
machine word, of which the low `bits` are not used yet. -/
def decodeFrom (word : UInt32) (bits : Nat) : List Char → Option (List UInt8)
  | [] => some []
  | c :: cs =>
    if c = '=' then some []
    else if isSkipped c then decodeFrom word bits cs
    else match sextet? c with
      | none => none
      | some value =>
        let word := word <<< 6 ||| value
        if bits + 6 ≥ 8 then
          (decodeFrom word (bits - 2) cs).map ((word >>> UInt32.ofNat (bits - 2)).toUInt8 :: ·)
        else decodeFrom word (bits + 6) cs

/-- The bytes of a text. -/
def decode? (cs : List Char) : Option (List UInt8) :=
  decodeFrom 0 0 cs

end BlockScript.Base64

import BlockScript.Number.Decimal
import BlockScript.Text.Basic

/-!
# Numbers in scripts and projects

The lenient way a slot reads a number and the one way a number is written: whole numbers
without a fraction, zero without a sign, and an exponent only from `10 ^ 21` on and below one
millionth.
-/

namespace BlockScript.Number

/-- One past the largest unsigned word of 64 bits. -/
def wordLimit : Nat := Nat.pow 2 64

/-- The bases announced by the second character of a numeral that starts with `0`. -/
def baseOf? (mark : Char) : Option Nat :=
  if mark == 'x' then some 16 else if mark == 'b' then some 2 else if mark == 'o' then some 8
  else none

/-- Reads a number the way a slot does. Blank text is zero, `0x`, `0b` and `0o` announce a
base for the digits of one machine word, and any other numeral is decimal and has to stand for
a finite number. -/
def parse? (text : String) : Option Binary64 :=
  let value := Chars.trim text.toList
  if value.isEmpty then some (Binary64.zero false)
  else
    let lowered := value.map Text.asciiLowerChar
    let base := if lowered.head? == some '0' then lowered[1]?.bind baseOf? else none
    match base with
    | some base => (Chars.wordIn? base wordLimit (lowered.drop 2)).map Binary64.ofNat
    | none =>
      if value.all fun c ↦ c.isDigit || c == '.' || c == 'e' || c == 'E' || c == '+' || c == '-'
      then (Decimal.readBinary64? value).filter Binary64.isFinite
      else none

/-- The least number written with a positive exponent. -/
def largeBound : Binary64 := Binary64.ofNat (Nat.pow 10 21)

/-- The least number written without a negative exponent. -/
def smallBound : Binary64 := Binary64.ofRatio false 1 (Nat.pow 10 6)

/-- Writes a number. -/
def format (x : Binary64) : String :=
  match x with
  | .nan => "NaN"
  | .infinite negative => if negative then "-Infinity" else "Infinity"
  | .finite negative significand exponent =>
    if significand = 0 then "0"
    else
      let (digits, power) := (Decimal.shortest .up significand exponent).scientific
      let body :=
        if !x.absLess largeBound || x.absLess smallBound then Chars.exponential digits power
        else if x.isIntegral then
          let (num, den) := Binary64.ratio significand exponent
          Nat.toDigits 10 (num / den)
        else Chars.positional digits power
      String.ofList (if negative then '-' :: body else body)

end BlockScript.Number

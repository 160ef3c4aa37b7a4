import BlockScript.Number.Binary64
import BlockScript.Text.Case

/-!
# Decimal numerals

Reading a numeral in decimal notation as the nearest floating-point number, and finding the
shortest decimal that reads back as a given number. `Decimal.shortest` tries one digit, then
two, and so on, and keeps a candidate only when `Decimal.toBinary64` reads it back, so that
writing and reading agree by construction; the exact expansion stands behind the search.
-/

namespace BlockScript

/-- The number `digits * 10 ^ exponent`. -/
structure Decimal where
  /-- The digits, read as one natural number. -/
  digits : Nat
  /-- The power of ten they are scaled by. -/
  exponent : Int
deriving DecidableEq, Repr

/-- The value of a decimal digit. -/
def digitValue? (c : Char) : Option Nat :=
  if c.isDigit then some (c.toNat - 48) else none

/-- The value of a digit of a base up to 36. -/
def digitIn? (base : Nat) (c : Char) : Option Nat :=
  let value :=
    if c.isDigit then some (c.toNat - 48)
    else if 'a' ≤ c ∧ c ≤ 'z' then some (c.toNat - 87)
    else if 'A' ≤ c ∧ c ≤ 'Z' then some (c.toNat - 55)
    else none
  value.filter (· < base)

namespace Chars

/-- The number a row of decimal digits stands for, going on from `start`. Characters other
than digits count as zero. -/
def decimalValue (start : Nat) (cs : List Char) : Nat :=
  cs.foldl (fun n c ↦ 10 * n + (digitValue? c).getD 0) start

/-- A natural number written in a base, where at least one digit is needed. -/
def natIn? (base : Nat) (cs : List Char) : Option Nat :=
  if cs.isEmpty then none
  else cs.foldl (fun n c ↦ n.bind fun n ↦ (digitIn? base c).map (base * n + ·)) (some 0)

/-- A natural number below `limit` written in a base, with an optional plus sign. -/
def wordIn? (base limit : Nat) (cs : List Char) : Option Nat :=
  let digits := if cs.head? == some '+' then cs.drop 1 else cs
  (natIn? base digits).filter (· < limit)

end Chars

namespace Decimal

/-- The number of decimal digits of a natural number; zero has one. -/
def digitCount (n : Nat) : Nat :=
  (Nat.toDigits 10 n).length

/-- The floating-point number nearest to a decimal, with a sign. A decimal far outside the
range is not expanded. -/
def toBinary64 (negative : Bool) (d : Decimal) : Binary64 :=
  let top := (digitCount d.digits : Int) + d.exponent
  if d.digits = 0 then Binary64.zero negative
  else if top > 310 then Binary64.infinite negative
  else if top < -330 then Binary64.zero negative
  else if 0 ≤ d.exponent then Binary64.ofRatio negative (d.digits * Nat.pow 10 d.exponent.toNat) 1
  else Binary64.ofRatio negative d.digits (Nat.pow 10 (-d.exponent).toNat)

/-! ### Reading -/

/-- Splits off an optional sign. -/
def sign (cs : List Char) : Bool × List Char :=
  match cs with
  | '-' :: rest => (true, rest)
  | '+' :: rest => (false, rest)
  | rest => (false, rest)

/-- Reads the exponent part after the digits: nothing, or an `e` with an integer. -/
def exponentPart? : List Char → Option Int
  | [] => some 0
  | c :: cs =>
    if c == 'e' || c == 'E' then
      let (negative, digits) := sign cs
      if digits.isEmpty || !digits.all Char.isDigit then none
      else
        let n : Int := Chars.decimalValue 0 digits
        some (if negative then -n else n)
    else none

/-- Reads a numeral without sign: digits with an optional point, at least one digit, and an
optional exponent. -/
def read? (cs : List Char) : Option Decimal :=
  let whole := cs.takeWhile Char.isDigit
  let rest := cs.dropWhile Char.isDigit
  let (fraction, rest) :=
    match rest with
    | '.' :: more => (more.takeWhile Char.isDigit, more.dropWhile Char.isDigit)
    | more => ([], more)
  if whole.isEmpty && fraction.isEmpty then none
  else (exponentPart? rest).map fun e ↦
    ⟨Chars.decimalValue 0 (whole ++ fraction), e - fraction.length⟩

/-- Reads a numeral with an optional sign, or one of the words for infinity and for the
undefined number, in any case. -/
def readBinary64? (cs : List Char) : Option Binary64 :=
  let (negative, rest) := sign cs
  let word := rest.map Text.asciiLowerChar
  if word == "inf".toList || word == "infinity".toList then some (Binary64.infinite negative)
  else if word == "nan".toList then some Binary64.nan
  else (read? rest).map (toBinary64 negative)

/-! ### The shortest decimal -/

/-- Which of two equally near candidates is taken. -/
inductive Tie where
  /-- The larger one. -/
  | up
  /-- The one with an even last digit. -/
  | toEven
deriving DecidableEq, Repr

/-- The power of ten just above a positive ratio: the least `p` with `num / den < 10 ^ p`. -/
def magnitude (num den : Nat) : Int :=
  if den ≤ num then digitCount (num / den)
  else
    let k := digitCount (den / num)
    if den ≤ num * Nat.pow 10 (k - 1) then 2 - (k : Int) else 1 - (k : Int)

/-- The candidate with `count` digits for the number `num / den`: of its two neighbours on the
grid of that many digits, the nearer one that reads back as `target`. -/
def candidate? (tie : Tie) (target : Binary64) (num den count : Nat) : Option Decimal :=
  let unit := magnitude num den - count
  let (a, b) :=
    if 0 ≤ unit then (num, den * Nat.pow 10 unit.toNat)
    else (num * Nat.pow 10 (-unit).toNat, den)
  let low : Decimal := ⟨a / b, unit⟩
  let high : Decimal := ⟨a / b + 1, unit⟩
  let r := a % b
  let lowFirst := 2 * r < b || (2 * r == b && tie == .toEven && a / b % 2 == 0)
  let ordered := if lowFirst then [low, high] else [high, low]
  ordered.find? fun d ↦ toBinary64 false d == target

/-- The shortest decimal that reads back as the positive number `significand * 2 ^ exponent`;
of several it is the nearest. -/
def shortest (tie : Tie) (significand : Nat) (exponent : Int) : Decimal :=
  let (num, den) := Binary64.ratio significand exponent
  let target := Binary64.finite false significand exponent
  let exact : Decimal :=
    if 0 ≤ exponent then ⟨num, 0⟩ else ⟨num * Nat.pow 5 (-exponent).toNat, exponent⟩
  ((List.range' 1 17).findSome? (candidate? tie target num den)).getD exact

/-- The significant digits of a decimal, without the zeros at the end, and the power of ten
that the first of them stands for. -/
def scientific (d : Decimal) : List Char × Int :=
  let all := Nat.toDigits 10 d.digits
  ((all.reverse.dropWhile (· == '0')).reverse, (all.length : Int) + d.exponent - 1)

end Decimal

/-! ### Layouts of a numeral -/

namespace Chars

/-- Digits with the point in its place, given the power of ten of the first digit. -/
def positional (digits : List Char) (power : Int) : List Char :=
  if power < 0 then
    "0.".toList ++ List.replicate (-power - 1).toNat '0' ++ digits
  else
    let whole := power.toNat + 1
    if digits.length ≤ whole then digits ++ List.replicate (whole - digits.length) '0'
    else digits.take whole ++ '.' :: digits.drop whole

/-- The first digit, the others behind a point, and the power of ten, always with a sign. -/
def exponential (digits : List Char) (power : Int) : List Char :=
  let mantissa := if digits.length ≤ 1 then digits else digits.take 1 ++ '.' :: digits.drop 1
  mantissa ++ 'e' :: (if power < 0 then '-' else '+') :: Nat.toDigits 10 power.natAbs

end Chars

end BlockScript

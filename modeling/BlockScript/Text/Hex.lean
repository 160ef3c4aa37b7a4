/-!
# Hexadecimal digits

Writing numbers with a fixed number of hexadecimal digits, and reading rows of digit pairs as
bytes.
-/

namespace BlockScript.Hex

/-- The lower-case hexadecimal digit of a number below sixteen. -/
def digit (n : Nat) : Char :=
  if n < 10 then Char.ofNat (48 + n) else Char.ofNat (87 + n)

/-- The upper-case hexadecimal digit of a number below sixteen. -/
def upperDigit (n : Nat) : Char :=
  if n < 10 then Char.ofNat (48 + n) else Char.ofNat (55 + n)

/-- The value of a hexadecimal digit of either case. -/
def digitValue? (c : Char) : Option Nat :=
  if c.isDigit then some (c.toNat - 48)
  else if 'a' ≤ c ∧ c ≤ 'f' then some (c.toNat - 87)
  else if 'A' ≤ c ∧ c ≤ 'F' then some (c.toNat - 55)
  else none

/-- The low `width` hexadecimal digits of a number, most significant first. -/
def fixed : Nat → Nat → List Char
  | 0, _ => []
  | width + 1, n => fixed width (n / 16) ++ [digit (n % 16)]

/-- The value of a row of hexadecimal digits. -/
def value? (cs : List Char) : Option Nat :=
  cs.foldl (fun n c ↦ n.bind fun n ↦ (digitValue? c).map (16 * n + ·)) (some 0)

/-- The bytes a row of digit pairs stands for. -/
def bytes? : List Char → Option (List UInt8)
  | [] => some []
  | [_] => none
  | a :: b :: rest => do
    let high ← digitValue? a
    let low ← digitValue? b
    return UInt8.ofNat (16 * high + low) :: (← bytes? rest)

/-- Bytes as a row of digit pairs. -/
def ofBytes (bytes : List UInt8) : String :=
  String.ofList (bytes.flatMap fun b ↦ fixed 2 b.toNat)

end BlockScript.Hex

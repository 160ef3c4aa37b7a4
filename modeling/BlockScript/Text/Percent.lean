import BlockScript.Text.Hex
import BlockScript.Text.Utf8

/-!
# Percent escapes

A text is written in a data URL with all its bytes escaped but the letters, the digits and a few
marks: an escape is a percent sign and the byte in two hexadecimal digits. Reading takes other
characters as they are, so it also reads texts that are escaped only in part.
-/

namespace BlockScript.Percent

/-- Why an escaped text cannot be read. -/
inductive EscapeError where
  /-- A percent sign has too little after it. -/
  | truncated
  /-- What follows a percent sign is no byte. -/
  | invalid (digits : String)
  /-- The bytes are no text. -/
  | notUtf8
deriving DecidableEq, Repr

/-! ### Writing -/

/-- Whether a byte stands for itself. -/
def isKept (b : UInt8) : Bool :=
  let c := Char.ofNat b.toNat
  c.isAlphanum || ['-', '_', '.', '!', '~', '*', '\'', '(', ')'].contains c

/-- A byte, escaped if need be. -/
def encodeByte (b : UInt8) : List Char :=
  if isKept b then [Char.ofNat b.toNat]
  else ['%', Hex.upperDigit (b.toNat / 16), Hex.upperDigit (b.toNat % 16)]

/-- A text with its bytes escaped. -/
def encode (s : String) : String :=
  String.ofList ((Text.utf8 s).flatMap encodeByte)

/-! ### Reading -/

/-- The byte of an escape. A plus sign may stand in front of a single digit. -/
def byte? (a b : Char) : Option UInt8 :=
  if a == '+' then (Hex.digitValue? b).map UInt8.ofNat
  else do
    let high ← Hex.digitValue? a
    let low ← Hex.digitValue? b
    return UInt8.ofNat (16 * high + low)

/-- The bytes that a text with escapes stands for. The two places after a percent sign are counted
in bytes, so one character of two bytes fills them, but makes no byte. -/
def decodeBytes : List Char → Except EscapeError (List UInt8)
  | [] => .ok []
  | [c] => if c = '%' then .error .truncated else .ok (String.utf8EncodeChar c)
  | [c, a] =>
    if c = '%' then
      if a.utf8Size = 2 then .error (.invalid (String.ofList [a])) else .error .truncated
    else do return String.utf8EncodeChar c ++ (← decodeBytes [a])
  | c :: a :: b :: rest =>
    if c = '%' then
      if a.utf8Size = 2 then .error (.invalid (String.ofList [a]))
      else if a.utf8Size = 1 && b.utf8Size = 1 then
        match byte? a b with
        | some byte => do return byte :: (← decodeBytes rest)
        | none => .error (.invalid (String.ofList [a, b]))
      else .error .truncated
    else do return String.utf8EncodeChar c ++ (← decodeBytes (a :: b :: rest))

/-- The text that a text with escapes stands for. -/
def decode (s : String) : Except EscapeError String := do
  match Text.ofUtf8? (← decodeBytes s.toList) with
  | some text => return text
  | none => throw .notUtf8

end BlockScript.Percent

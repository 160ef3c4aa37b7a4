import BlockScript.Json.Basic

/-!
# Writing JSON

The compact text of a JSON value: no white space, the fields of an object in the order of their
keys, and only the escapes that are needed. A floating-point number has the fewest digits that
read back as it and always shows that it is none of the integers: it has a point, or an exponent
from `10 ^ 16` on and below `10 ^ -5`.
-/

namespace BlockScript

/-- The text of a floating-point number in a document. -/
def JsonNumber.floatText : Binary64 → String
  | .finite negative significand exponent =>
    let body :=
      if significand = 0 then "0.0".toList
      else
        let (digits, power) := (Decimal.shortest .toEven significand exponent).scientific
        if -5 ≤ power && power ≤ 15 then
          let text := Chars.positional digits power
          if text.contains '.' then text else text ++ ".0".toList
        else Chars.exponential digits power
    String.ofList (if negative then '-' :: body else body)
  | _ => "null"

/-- The text of a number. -/
def JsonNumber.text : JsonNumber → String
  | .integer (.ofNat n) => String.ofList (Nat.toDigits 10 n)
  | .integer (.negSucc n) => String.ofList ('-' :: Nat.toDigits 10 (n + 1))
  | .float x => JsonNumber.floatText x

namespace Json

/-- A character of a string as it is written between the quotes. -/
def escapeChar (c : Char) : List Char :=
  if c == '"' then ['\\', '"']
  else if c == '\\' then ['\\', '\\']
  else if c.toNat = 8 then ['\\', 'b']
  else if c.toNat = 12 then ['\\', 'f']
  else if c == '\n' then ['\\', 'n']
  else if c == '\r' then ['\\', 'r']
  else if c == '\t' then ['\\', 't']
  else if c.toNat < 32 then '\\' :: 'u' :: Hex.fixed 4 c.toNat
  else [c]

/-- A string in quotes. -/
def quoteText (s : String) : String :=
  String.ofList ('"' :: s.toList.flatMap escapeChar ++ ['"'])

mutual

/-- The compact text of a value. -/
def render : Json → String
  | .null => "null"
  | .bool b => if b then "true" else "false"
  | .num n => n.text
  | .str s => quoteText s
  | .arr items => "[" ++ renderItems items ++ "]"
  | .obj fields => "\x7b" ++ renderFields fields ++ "\x7d"

/-- The items of an array, separated by commas. -/
def renderItems : List Json → String
  | [] => ""
  | [item] => render item
  | item :: rest => render item ++ "," ++ renderItems rest

/-- The fields of an object, separated by commas. -/
def renderFields : List (String × Json) → String
  | [] => ""
  | [(key, value)] => quoteText key ++ ":" ++ render value
  | (key, value) :: rest => quoteText key ++ ":" ++ render value ++ "," ++ renderFields rest

end

end Json

end BlockScript

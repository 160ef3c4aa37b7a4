import BlockScript.Json.Basic

/-!
# Reading JSON

A strict reader of JSON documents. Each part takes a list of characters and gives the value it
read with the characters after it, or nothing when the text is malformed. Values nest to a fixed
depth; the reader recurses on what is left of that depth, and goes through the items of an array
or the fields of an object with the length of the text as its measure.

Decimal fractions are scaled in floating point: the digits that fit a machine word are taken as
an integer, which is multiplied or divided by a power of ten. A number too large for this is
malformed.
-/

namespace BlockScript.Json

/-- The characters that may stand between two tokens. -/
def isSpace (c : Char) : Bool :=
  c == ' ' || c == '\n' || c == '\t' || c == '\r'

/-- Drops the white space in front. -/
def skipSpace (cs : List Char) : List Char :=
  cs.dropWhile isSpace

/-! ### Numbers -/

/-- The largest unsigned machine word. -/
def maxWord : Nat := Nat.pow 2 64 - 1

/-- Appends digits to a number as long as it stays a machine word; the digits left over are
returned. -/
def absorb (n : Nat) : List Char → Nat × List Char
  | [] => (n, [])
  | c :: cs =>
    let next := 10 * n + (digitValue? c).getD 0
    if next ≤ maxWord then absorb next cs else (n, c :: cs)

/-- The power of ten as a floating-point number. -/
def powerOfTen (n : Nat) : Binary64 := Binary64.ofNat (Nat.pow 10 n)

/-- Scales a number by a power of ten, in steps of `10 ^ 308` downwards. Two steps bring any
machine word to zero. -/
def scale? : Nat → Binary64 → Int → Option Binary64
  | steps, x, e =>
    if e.natAbs ≤ 308 then
      if 0 ≤ e then
        let y := x.mul (powerOfTen e.natAbs)
        if y.isFinite then some y else none
      else some (x.div (powerOfTen e.natAbs))
    else if x.isZero then some x
    else if 0 ≤ e then none
    else match steps with
      | 0 => some (Binary64.zero false)
      | steps + 1 => scale? steps (x.div (powerOfTen 308)) (e + 308)

/-- The floating-point number made of a sign, digits and a power of ten. -/
def ofParts? (negative : Bool) (digits : Nat) (e : Int) : Option Binary64 :=
  (scale? 3 (Binary64.ofNat digits) e).map fun x ↦ if negative then x.neg else x

/-- The largest exponent that is read as a number. -/
def maxExponent : Nat := Nat.pow 2 31 - 1

/-- Reads the exponent after its mark. An exponent past the largest one makes the number zero,
or malformed when the number would be large. -/
def exponent? (negative : Bool) (digits : Nat) (start : Int) (cs : List Char) :
    Option (Binary64 × List Char) := do
  let (down, cs) :=
    match cs with
    | '+' :: rest => (false, rest)
    | '-' :: rest => (true, rest)
    | rest => (false, rest)
  let row := cs.takeWhile Char.isDigit
  let rest := cs.dropWhile Char.isDigit
  if row.isEmpty then none
  else
    let e := Chars.decimalValue 0 row
    if e > maxExponent then
      if digits != 0 && !down then none else some (Binary64.zero negative, rest)
    else
      let x ← ofParts? negative digits (if down then start - e else start + e)
      return (x, rest)

/-- Reads what may follow the digits of a floating-point number. -/
def afterDigits? (negative : Bool) (digits : Nat) (start : Int) (cs : List Char) :
    Option (Binary64 × List Char) :=
  match cs with
  | c :: rest =>
    if c == 'e' || c == 'E' then exponent? negative digits start rest
    else (ofParts? negative digits start).map fun x ↦ (x, cs)
  | [] => (ofParts? negative digits start).map fun x ↦ (x, cs)

/-- Reads the digits after the point. Those that do not fit a machine word any more are
ignored. -/
def fraction? (negative : Bool) (digits : Nat) (start : Int) (cs : List Char) :
    Option (Binary64 × List Char) :=
  let row := cs.takeWhile Char.isDigit
  let rest := cs.dropWhile Char.isDigit
  let (digits, left) := absorb digits row
  if row.isEmpty then none
  else afterDigits? negative digits (start - (row.length - left.length : Nat)) rest

/-- Reads a number after its sign. -/
def number? (negative : Bool) (cs : List Char) : Option (JsonNumber × List Char) :=
  let row := cs.takeWhile Char.isDigit
  let rest := cs.dropWhile Char.isDigit
  if row.isEmpty || (row.head? == some '0' && row.length > 1) then none
  else
    let (digits, left) := absorb 0 row
    let start : Int := left.length
    let whole : Option (JsonNumber × List Char) :=
      if !left.isEmpty then
        (ofParts? negative digits start).map fun x ↦ (JsonNumber.float x, rest)
      else if !negative then some (.integer digits, rest)
      else if 1 ≤ digits ∧ digits ≤ Nat.pow 2 63 then some (.integer (-digits), rest)
      else some (.float (Binary64.ofNat digits).neg, rest)
    match rest with
    | c :: more =>
      if c == '.' then
        (fraction? negative digits start more).map fun read ↦ (JsonNumber.float read.1, read.2)
      else if c == 'e' || c == 'E' then
        (exponent? negative digits start more).map fun read ↦ (JsonNumber.float read.1, read.2)
      else whole
    | [] => whole

/-! ### Strings -/

/-- Reads four hexadecimal digits. -/
def codeUnit? (cs : List Char) : Option (Nat × List Char) :=
  match cs with
  | a :: b :: c :: d :: rest => (Hex.value? [a, b, c, d]).map fun n ↦ (n, rest)
  | _ => none

/-- The character of an escape that is a single letter. -/
def simpleEscape? (c : Char) : Option Char :=
  if c == '"' || c == '\\' || c == '/' then some c
  else if c == 'b' then some (Char.ofNat 8)
  else if c == 'f' then some (Char.ofNat 12)
  else if c == 'n' then some '\n'
  else if c == 'r' then some '\r'
  else if c == 't' then some '\t'
  else none

/-- Reads an escape after its backslash. A character outside the basic plane is written as two
code units, and neither of them may stand alone. -/
def escape? (cs : List Char) : Option (Char × List Char) :=
  match cs with
  | 'u' :: rest => do
    let (high, rest) ← codeUnit? rest
    if 0xDC00 ≤ high && high ≤ 0xDFFF then none
    else if 0xD800 ≤ high && high ≤ 0xDBFF then
      match rest with
      | '\\' :: 'u' :: rest =>
        let (low, rest) ← codeUnit? rest
        if 0xDC00 ≤ low && low ≤ 0xDFFF then
          some (Char.ofNat (0x10000 + (high - 0xD800) * 0x400 + (low - 0xDC00)), rest)
        else none
      | _ => none
    else some (Char.ofNat high, rest)
  | c :: rest => (simpleEscape? c).map fun d ↦ (d, rest)
  | [] => none

/-- Reads a string after its opening quote; `bound` is at least the number of characters. -/
def string? : Nat → List Char → Option (List Char × List Char)
  | 0, _ => none
  | _ + 1, [] => none
  | bound + 1, c :: cs =>
    if c == '"' then some ([], cs)
    else if c.toNat < 32 then none
    else if c == '\\' then do
      let (d, rest) ← escape? cs
      let (ds, rest) ← string? bound rest
      return (d :: ds, rest)
    else do
      let (ds, rest) ← string? bound cs
      return (c :: ds, rest)

/-! ### Values -/

/-- A reader of one value. -/
abbrev Reader := List Char → Option (Json × List Char)

/-- Reads the items of an array, of which there is at least one, up to the closing bracket. -/
def items? (item : Reader) : Nat → List Char → Option (List Json × List Char)
  | 0, _ => none
  | bound + 1, cs => do
    let (value, rest) ← item cs
    match skipSpace rest with
    | ']' :: rest => return ([value], rest)
    | ',' :: rest =>
      let (values, rest) ← items? item bound rest
      return (value :: values, rest)
    | _ => none

/-- Reads the fields of an object, of which there is at least one, up to the closing brace. -/
def fields? (item : Reader) : Nat → List Char → Option (List (String × Json) × List Char)
  | 0, _ => none
  | bound + 1, cs => do
    match skipSpace cs with
    | '"' :: rest =>
      let (key, rest) ← string? rest.length.succ rest
      match skipSpace rest with
      | ':' :: rest =>
        let (value, rest) ← item rest
        match skipSpace rest with
        | '\x7d' :: rest => return ([(String.ofList key, value)], rest)
        | ',' :: rest =>
          let (values, rest) ← fields? item bound rest
          return ((String.ofList key, value) :: values, rest)
        | _ => none
      | _ => none
    | _ => none

/-- Reads one value, nested at most `depth` deep. -/
def value? (depth : Nat) : Reader := fun cs ↦
  match skipSpace cs with
  | [] => none
  | c :: rest =>
    if c == '"' then
      (string? rest.length.succ rest).map fun read ↦ (Json.str (String.ofList read.1), read.2)
    else if c == '[' then
      match depth with
      | 0 => none
      | depth + 1 =>
        match skipSpace rest with
        | ']' :: rest => some (.arr [], rest)
        | rest => (items? (value? depth) rest.length.succ rest).map fun read ↦ (.arr read.1, read.2)
    else if c == '\x7b' then
      match depth with
      | 0 => none
      | depth + 1 =>
        match skipSpace rest with
        | '\x7d' :: rest => some (.obj [], rest)
        | rest =>
          (fields? (value? depth) rest.length.succ rest).map fun read ↦
            (Json.object read.1, read.2)
    else if c == '-' then (number? true rest).map fun read ↦ (.num read.1, read.2)
    else if c.isDigit then (number? false (c :: rest)).map fun read ↦ (.num read.1, read.2)
    else if "null".toList.isPrefixOf (c :: rest) then some (.null, rest.drop 3)
    else if "true".toList.isPrefixOf (c :: rest) then some (.bool true, rest.drop 3)
    else if "false".toList.isPrefixOf (c :: rest) then some (.bool false, rest.drop 4)
    else none

/-- How deep values may nest in a document. -/
def maxDepth : Nat := 127

/-- Reads a document: one value with white space around it. -/
def parse? (text : String) : Option Json := do
  let (value, rest) ← value? maxDepth text.toList
  if (skipSpace rest).isEmpty then return value else none

end BlockScript.Json

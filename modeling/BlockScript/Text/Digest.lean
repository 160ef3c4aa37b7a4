import BlockScript.Text.Hex

/-!
# Content digests

The identifier of a text that depends on its content alone. Two 32-bit lanes run over the
UTF-16 code units of the text; each step mixes one unit in and multiplies by an odd constant,
so a step loses nothing of the lane's state. The digest shows both lanes, their exclusive or
and their sum, as eight hexadecimal digits each.
-/

namespace BlockScript

/-- The UTF-16 code units of a character. -/
def Chars.unitsOf (c : Char) : List UInt16 :=
  let n := c.toNat
  if n < 0x10000 then [UInt16.ofNat n]
  else [UInt16.ofNat (0xD800 + (n - 0x10000) / 0x400), UInt16.ofNat (0xDC00 + n % 0x400)]

/-- The UTF-16 code units of a text. -/
def Text.units (s : String) : List UInt16 :=
  s.toList.flatMap Chars.unitsOf

namespace Digest

/-- Mixes one code unit into a lane. -/
def mix (multiplier lane : UInt32) (unit : UInt16) : UInt32 :=
  (lane ^^^ unit.toUInt32) * multiplier

/-- Runs a lane over code units. -/
def lane (seed multiplier : UInt32) (units : List UInt16) : UInt32 :=
  units.foldl (mix multiplier) seed

/-- The first lane. -/
def firstLane (units : List UInt16) : UInt32 :=
  lane 2166136261 16777619 units

/-- The second lane. -/
def secondLane (units : List UInt16) : UInt32 :=
  lane 3339675911 2246822519 units

/-- A word as eight hexadecimal digits. -/
def word (w : UInt32) : List Char :=
  Hex.fixed 8 w.toNat

end Digest

/-- The digest of a text: 32 hexadecimal digits. -/
def Text.digest (s : String) : String :=
  let a := Digest.firstLane (Text.units s)
  let b := Digest.secondLane (Text.units s)
  String.ofList (Digest.word a ++ Digest.word b ++ Digest.word (a ^^^ b) ++ Digest.word (a + b))

end BlockScript

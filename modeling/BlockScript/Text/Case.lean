import BlockScript.Text.CaseTable

/-!
# Lower case and upper case

Full case conversion of texts. Lower-casing is character by character except for the capital
sigma, which becomes `ς` at the end of a word and `σ` elsewhere; upper-casing may turn one
letter into several. Names of symbols and commands are compared through `Text.lower`.
-/

namespace BlockScript

namespace Text

/-- Whether a code point lies in one of the ranges. -/
def inRanges (ranges : List (Nat × Nat)) (c : Char) : Bool :=
  ranges.any fun range ↦ range.1 ≤ c.toNat && c.toNat ≤ range.2

/-- Letters that have case. -/
def isCased (c : Char) : Bool :=
  inRanges casedRanges c

/-- Characters that do not count as neighbours of a sigma. -/
def isCaseIgnorable (c : Char) : Bool :=
  inRanges caseIgnorableRanges c

/-- The lower-case form of an ASCII letter; every other character is left alone. -/
def asciiLowerChar (c : Char) : Char :=
  if 'A' ≤ c ∧ c ≤ 'Z' then Char.ofNat (c.toNat + 32) else c

/-- The upper-case form of an ASCII letter; every other character is left alone. -/
def asciiUpperChar (c : Char) : Char :=
  if 'a' ≤ c ∧ c ≤ 'z' then Char.ofNat (c.toNat - 32) else c

/-- Moves a character along the first run that holds it. -/
def moveAlong (runs : List CaseRun) (c : Char) : Char :=
  match runs.find? (·.contains c.toNat) with
  | some run => Char.ofNat (run.move c.toNat)
  | none => c

/-- The lower-case form of a single character. The dotted capital I keeps its dot as a mark of
its own. -/
def lowerChar (c : Char) : List Char :=
  if c.toNat < 0x80 then [asciiLowerChar c]
  else if c.toNat = 0x130 then ['i', Char.ofNat 0x307]
  else [moveAlong lowerRuns c]

/-- The upper-case form of a single character. -/
def upperChar (c : Char) : List Char :=
  if c.toNat < 0x80 then [asciiUpperChar c]
  else match upperSequences.find? (·.1 == c.toNat) with
    | some entry => entry.2.map Char.ofNat
    | none => [moveAlong upperRuns c]

end Text

namespace Chars

/-- Whether the nearest character that counts has case. -/
def meetsCased (cs : List Char) : Bool :=
  match cs.dropWhile Text.isCaseIgnorable with
  | [] => false
  | c :: _ => Text.isCased c

/-- The lower-case form of the characters after `before`, which is given nearest first. -/
def lowerAfter (before : List Char) : List Char → List Char
  | [] => []
  | c :: cs =>
    (if c.toNat = 0x3A3 then
      [Char.ofNat (if meetsCased before && !meetsCased cs then 0x3C2 else 0x3C3)]
    else Text.lowerChar c) ++ lowerAfter (c :: before) cs

/-- The lower-case form of a text. -/
def lower (cs : List Char) : List Char :=
  lowerAfter [] cs

/-- The upper-case form of a text. -/
def upper (cs : List Char) : List Char :=
  cs.flatMap Text.upperChar

end Chars

namespace Text

/-- The lower-case form of a text. -/
def lower (s : String) : String :=
  String.ofList (Chars.lower s.toList)

/-- The upper-case form of a text. -/
def upper (s : String) : String :=
  String.ofList (Chars.upper s.toList)

/-- The text with its ASCII letters in lower case. -/
def asciiLower (s : String) : String :=
  String.ofList (s.toList.map asciiLowerChar)

end Text

end BlockScript

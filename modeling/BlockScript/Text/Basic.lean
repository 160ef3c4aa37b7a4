import BlockScript.Number.Total

/-!
# Text as a list of characters

White space, trimming, lines and positions. The scanners of this library read a text as the
list of its characters, so each operation is defined on `List Char` under `Chars` and lifted to
`String` under `Text`. Positions that leave the library count UTF-8 bytes; `Chars.byteLength`
and `Chars.dropBytes?` are the only places where that count is made.
-/

namespace BlockScript

/-! ### White space -/

/-- The characters with the white-space property, ASCII or not. -/
def Text.isWhite (c : Char) : Bool :=
  let n := c.toNat
  (9 ≤ n && n ≤ 13) || n == 0x20 || n == 0x85 || n == 0xA0 || n == 0x1680 ||
    (0x2000 ≤ n && n ≤ 0x200A) || n == 0x2028 || n == 0x2029 || n == 0x202F || n == 0x205F ||
    n == 0x3000

namespace Chars

/-- Drops the white space a text starts with. -/
def trimStart (cs : List Char) : List Char :=
  cs.dropWhile Text.isWhite

/-- Drops the white space a text ends with. -/
def trimEnd (cs : List Char) : List Char :=
  (cs.reverse.dropWhile Text.isWhite).reverse

/-- Drops the white space at both ends of a text. -/
def trim (cs : List Char) : List Char :=
  trimEnd (trimStart cs)

/-! ### Lines -/

/-- The lines of a text, read with the current line collected in reverse. A line feed ends a
line and takes one carriage return before it along; a last line needs no line feed. -/
def linesFrom (line : List Char) : List Char → List (List Char)
  | [] => if line.isEmpty then [] else [line.reverse]
  | c :: cs =>
    if c = '\n' then
      (match line with
        | [] => []
        | d :: ds => if d = '\r' then ds.reverse else line.reverse) :: linesFrom [] cs
    else linesFrom (c :: line) cs

/-- The lines of a text. -/
def lines (cs : List Char) : List (List Char) :=
  linesFrom [] cs

/-- Drops one carriage return at the end of a line. -/
def dropReturn (cs : List Char) : List Char :=
  if cs.getLast? = some '\r' then cs.dropLast else cs

/-! ### Positions -/

/-- The number of bytes a text takes in UTF-8. -/
def byteLength (cs : List Char) : Nat :=
  total (cs.map Char.utf8Size)

/-- The text from a byte position on, when that position is the start of a character or the
end of the text. -/
def dropBytes? : Nat → List Char → Option (List Char)
  | 0, cs => some cs
  | _ + 1, [] => none
  | n + 1, c :: cs => if c.utf8Size ≤ n + 1 then dropBytes? (n + 1 - c.utf8Size) cs else none

/-! ### Parts -/

/-- The first place where `part` occurs: what stands before it and what stands after it. -/
def splitFirst? (part : List Char) : List Char → Option (List Char × List Char)
  | [] => if part.isEmpty then some ([], []) else none
  | c :: cs =>
    if part.isPrefixOf (c :: cs) then some ([], (c :: cs).drop part.length)
    else (splitFirst? part cs).map fun halves ↦ (c :: halves.1, halves.2)

/-- Whether `part` occurs in a text. -/
def contains (part cs : List Char) : Bool :=
  (splitFirst? part cs).isSome

/-- What follows `start` in a text that begins with it. -/
def dropPrefix? (start cs : List Char) : Option (List Char) :=
  if start.isPrefixOf cs then some (cs.drop start.length) else none

end Chars

namespace Text

/-- Drops the white space at both ends of a text. -/
def trim (s : String) : String :=
  String.ofList (Chars.trim s.toList)

/-- A text is blank when it holds nothing but white space. -/
def isBlank (s : String) : Bool :=
  s.toList.all isWhite

/-- The trimmed text, or the fallback when nothing is left. -/
def nameOr (name fallback : String) : String :=
  let cleaned := trim name
  if cleaned.isEmpty then fallback else cleaned

/-- The text itself, or the fallback when it is empty. -/
def orElse (value fallback : String) : String :=
  if value.isEmpty then fallback else value

/-- Joins texts with a separator between each two. -/
def join (separator : String) (parts : List String) : String :=
  String.intercalate separator parts

/-- Whether a text begins with `start`. -/
def startsWith (s start : String) : Bool :=
  start.toList.isPrefixOf s.toList

/-- Whether a text ends with `last`. -/
def endsWith (s last : String) : Bool :=
  last.toList.isSuffixOf s.toList

/-- Whether `part` occurs in a text. -/
def contains (s part : String) : Bool :=
  Chars.contains part.toList s.toList

/-- The text written `n` times. -/
def replicate (n : Nat) (s : String) : String :=
  String.join (List.replicate n s)

end Text

end BlockScript

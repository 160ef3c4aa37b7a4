import BlockScript.Costume.DataUrl
import BlockScript.Markup.Document
import BlockScript.Text.WordTable

/-!
# Drawings

Finding the drawing in a text, and its size. The size is read off the attributes of the outermost
element where the text is well-formed markup, and off its opening tag alone where it is not. A
drawing turns about the middle of its area.
-/

namespace BlockScript.Drawing

/-! ### Extent -/

/-- Whether a character is a letter of a word, regardless of case. The long s counts as an s. -/
def sameLetter (letter c : Char) : Bool :=
  letter == Text.asciiLowerChar c || (letter == 's' && c.toNat == 0x17F)

/-- What follows a word at the start of a text, regardless of case. -/
def dropWord? : List Char → List Char → Option (List Char)
  | [], cs => some cs
  | _ :: _, [] => none
  | letter :: word, c :: cs => if sameLetter letter c then dropWord? word cs else none

/-- The first place where a word occurs, regardless of case: the text from there on, and the text
after the word. -/
def findWord? (word : List Char) : List Char → Option (List Char × List Char)
  | [] => none
  | c :: cs =>
    match dropWord? word (c :: cs) with
    | some rest => some (c :: cs, rest)
    | none => findWord? word cs

/-- The drawing in a text: all of it when it starts and ends one, else from the first start of one
to the next end. -/
def extract (text : String) : Except CostumeError String :=
  let trimmed := Text.trim text
  if Text.startsWith trimmed "<svg" && Text.contains trimmed "</svg>" then .ok trimmed
  else
    let found := do
      let (start, body) ← findWord? "<svg".toList trimmed.toList
      let (_, rest) ← findWord? "</svg>".toList body
      return String.ofList (start.take (start.length - rest.length))
    match found with
    | some markup => .ok markup
    | none => .error .noMarkup

/-! ### Size -/

/-- The width and height of a drawing. -/
structure Size where
  /-- The width. -/
  width : Binary64
  /-- The height. -/
  height : Binary64
deriving DecidableEq, Repr

/-- The width and height of a drawing that tells neither. -/
def defaultLength : Binary64 := Binary64.ofNat 96

/-- A number that can be a length. -/
def positive (x : Option Binary64) : Option Binary64 :=
  x.filter fun n ↦ n.isFinite && n.isPositive

/-- The parts of a text between white space and commas. -/
def viewBoxParts (cs : List Char) : List (List Char) :=
  (cs.foldr (fun c parts ↦
    if Text.isWhite c || c == ',' then [] :: parts
    else match parts with
      | part :: rest => (c :: part) :: rest
      | [] => [[c]]) [[]]).filter (!·.isEmpty)

/-- The size that a view box tells: the last two of its four numbers. -/
def viewBox? (value : String) : Option Size :=
  match viewBoxParts value.toList with
  | [_, _, width, height] => do
    return ⟨← positive (Decimal.readBinary64? width), ← positive (Decimal.readBinary64? height)⟩
  | _ => none

/-- The digits and points that a text starts with, behind an optional sign. -/
def numeralStart (cs : List Char) : List Char :=
  let isDigit (c : Char) := c.isDigit || c == '.'
  match cs with
  | c :: rest => if c == '+' || c == '-' then c :: rest.takeWhile isDigit else cs.takeWhile isDigit
  | [] => []

/-- The length that an attribute tells, whatever its unit. -/
def length? (value : String) : Option Binary64 :=
  Decimal.readBinary64? (numeralStart (Chars.trimStart value.toList))

/-- The size that the attributes of a drawing tell. -/
def sizeOf (attributes : Dict String) : Size :=
  match (attributes.find? "viewBox").bind viewBox? with
  | some size => size
  | none =>
    ⟨(positive ((attributes.find? "width").bind length?)).getD defaultLength,
      (positive ((attributes.find? "height").bind length?)).getD defaultLength⟩

/-! ### Size of a text that is no markup -/

/-- The opening tag of the first drawing in a text, after its name and without its end. -/
def openingTag? : List Char → Option (List Char)
  | [] => none
  | c :: cs =>
    let here := do
      let rest ← dropWord? "<svg".toList (c :: cs)
      if (rest.head?.any Text.isWordChar) || !rest.contains '>' then none
      else some (rest.takeWhile (· != '>'))
    here.or (openingTag? cs)

/-- The attributes that tell a size. -/
inductive SizeAttribute where
  | viewBox
  | width
  | height
deriving DecidableEq, Repr

/-- The attribute that a text starts with the name of, and what follows. -/
def sizeAttribute? (cs : List Char) : Option (SizeAttribute × List Char) :=
  ((dropWord? "viewbox".toList cs).map (SizeAttribute.viewBox, ·)).or
    (((dropWord? "width".toList cs).map (SizeAttribute.width, ·)).or
      ((dropWord? "height".toList cs).map (SizeAttribute.height, ·)))

/-- The quoted value that a text starts with, and what follows it. -/
def quotedValue? (cs : List Char) : Option (List Char × List Char) :=
  match cs with
  | quote :: rest =>
    if quote == '"' || quote == '\'' then
      match rest.dropWhile (· != quote) with
      | _ :: after => some (rest.takeWhile (· != quote), after)
      | [] => none
    else none
  | [] => none

/-- The attribute with its value that a text starts with, after one white space, and what
follows. -/
def assignment? (cs : List Char) : Option (SizeAttribute × String × List Char) :=
  match cs with
  | [] => none
  | c :: rest =>
    if !Text.isWhite c then none
    else do
      let (name, rest) ← sizeAttribute? rest
      match Chars.trimStart rest with
      | '=' :: rest =>
        let (value, rest) ← quotedValue? (Chars.trimStart rest)
        return (name, String.ofList value, rest)
      | _ => none

/-- The attributes of an opening tag that tell a size, in order; `bound` is at least the length of
the tag. -/
def assignments : Nat → List Char → List (SizeAttribute × String)
  | 0, _ => []
  | _, [] => []
  | bound + 1, c :: cs =>
    match assignment? (c :: cs) with
    | some (name, value, rest) => (name, value) :: assignments bound rest
    | none => assignments bound cs

/-- The value of the last attribute of some name. -/
def last? (name : SizeAttribute) (all : List (SizeAttribute × String)) : Option String :=
  ((all.filter (·.1 = name)).getLast?).map (·.2)

/-- The size that the opening tag of the first drawing in a text tells, if any. -/
def scanSize? (cs : List Char) : Option Size := do
  let tag ← openingTag? cs
  let all := assignments tag.length tag
  match (last? .viewBox all).bind viewBox? with
  | some size => return size
  | none =>
    let width := positive ((last? .width all).bind length?)
    let height := positive ((last? .height all).bind length?)
    if width.isNone && height.isNone then none
    else return ⟨width.getD defaultLength, height.getD defaultLength⟩

/-! ### Center -/

/-- A point of a drawing. -/
structure Center where
  /-- The distance from the left edge. -/
  x : Binary64
  /-- The distance from the upper edge. -/
  y : Binary64
deriving DecidableEq, Repr

/-- The size of a drawing. -/
def size (markup : String) : Size :=
  match Markup.rootAttributes? markup with
  | some attributes => sizeOf attributes
  | none => (scanSize? markup.toList).getD ⟨defaultLength, defaultLength⟩

/-- Half a length, rounded. -/
def half (x : Binary64) : Binary64 :=
  (x.div (Binary64.ofNat 2)).round

/-- The middle of a drawing. -/
def center (markup : String) : Center :=
  let s := size markup
  ⟨half s.width, half s.height⟩

end BlockScript.Drawing

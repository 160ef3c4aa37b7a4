import BlockScript.Number.Decimal

/-!
# Characters and names of markup

Which characters a marked-up document may hold, which of them make names, and names with an
optional namespace in front. Two versions of the rules differ in the control characters they
allow.
-/

namespace BlockScript.Markup

/-- Whether a character is white space between the parts of a tag. -/
def isSpace (c : Char) : Bool :=
  c == ' ' || c == '\t' || c == '\n' || c == '\r'

/-- Whether a number lies in one of some ranges. -/
def inRanges (ranges : List (Nat × Nat)) (n : Nat) : Bool :=
  ranges.any fun r ↦ r.1 ≤ n && n ≤ r.2

/-- Whether a name may start with a character. -/
def isNameStart (c : Char) : Bool :=
  c.isAlpha || c == ':' || c == '_' ||
    inRanges [(0xC0, 0xD6), (0xD8, 0xF6), (0xF8, 0x2FF), (0x370, 0x37D), (0x37F, 0x1FFF),
      (0x200C, 0x200D), (0x2070, 0x218F), (0x2C00, 0x2FEF), (0x3001, 0xD7FF), (0xF900, 0xFDCF),
      (0xFDF0, 0xFFFD), (0x10000, 0xEFFFF)] c.toNat

/-- Whether a name may hold a character after its first one. -/
def isNameChar (c : Char) : Bool :=
  isNameStart c || c.isDigit || c == '-' || c == '.' ||
    inRanges [(0xB7, 0xB7), (0x300, 0x36F), (0x203F, 0x2040)] c.toNat

/-- The versions of the rules. -/
inductive Version where
  | first
  | second
deriving DecidableEq, Repr

/-- Whether a character may be meant by a reference. -/
def Version.allows (v : Version) (c : Char) : Bool :=
  let n := c.toNat
  (match v with
    | .first => isSpace c || 0x20 ≤ n
    | .second => 1 ≤ n) && n != 0xFFFE && n != 0xFFFF

/-- Whether a character may stand in a document itself. -/
def Version.allowsPlain (v : Version) (c : Char) : Bool :=
  v.allows c && (v == .first ||
    !inRanges [(0x01, 0x08), (0x0B, 0x0C), (0x0E, 0x1F), (0x7F, 0x84), (0x86, 0x9F)] c.toNat)

/-- A name, in a namespace or in none. -/
structure Name where
  /-- The namespace, by its local abbreviation. -/
  space : Option String
  /-- The name within it. -/
  base : String
deriving DecidableEq, Repr

/-- Reads a name: a colon separates the namespace, and neither part is empty. -/
def Name.parse? (cs : List Char) : Option Name :=
  let head := cs.takeWhile (· != ':')
  match cs.dropWhile (· != ':') with
  | [] => if head.isEmpty then none else some ⟨none, String.ofList head⟩
  | _ :: base =>
    if head.isEmpty || base.isEmpty || base.contains ':' then none
    else some ⟨some (String.ofList head), String.ofList base⟩

/-- The abbreviations that need no declaration. -/
def reservedSpaces : List String := ["xml", "xmlns"]

/-- Whether an element may have a name. -/
def Name.isElementName (name : Name) : Bool :=
  match name.space with
  | some space => !reservedSpaces.contains space
  | none => true

/-- The character that a numeric reference means, given what follows its number sign. -/
def numericReference? (v : Version) (cs : List Char) : Option Char :=
  let code :=
    match cs with
    | 'x' :: digits => Chars.wordIn? 16 (Nat.pow 2 32) digits
    | digits => Chars.wordIn? 10 (Nat.pow 2 32) digits
  code.bind fun n ↦
    if n < 0xD800 || (0xE000 ≤ n && n < 0x110000) then
      some (Char.ofNat n) |>.filter v.allows
    else none

/-- The character that one of the five names of reserved characters means. -/
def namedReference? (name : String) : Option Char :=
  if name == "lt" then some '<'
  else if name == "gt" then some '>'
  else if name == "amp" then some '&'
  else if name == "apos" then some '\''
  else if name == "quot" then some '"'
  else none

end BlockScript.Markup

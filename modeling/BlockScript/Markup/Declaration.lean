import BlockScript.Markup.Name
import BlockScript.Text.Basic
import BlockScript.Text.Utf8

/-!
# The declaration of a document

A document may start by declaring the version of the rules it follows, how its characters are
encoded, and whether it stands alone, in this order.
-/

namespace BlockScript.Markup

/-- How the bytes of a document make characters. -/
inductive Encoding where
  | utf8
  | latin1
  | ascii
deriving DecidableEq, Repr

namespace Encoding

/-- Whether a label and a name agree as far as both go. -/
def agrees (name : List Char) (label : String) : Bool :=
  (label.toList.zip name).all fun pair ↦ pair.1 == Text.asciiLowerChar pair.2

/-- The encoding of a name. Encodings with units of two bytes need a mark in front of the
document, so they cannot be declared. -/
def parse? (name : List Char) : Option Encoding :=
  if ["utf-8", "utf8"].any (agrees name) then some utf8
  else if ["iso-8859-1", "latin1"].any (agrees name) then some latin1
  else if ["utf-16", "utf16"].any (agrees name) then none
  else if ["ascii", "us-ascii"].any (agrees name) then some ascii
  else none

/-- What the bytes of a character are read as. -/
def read? (e : Encoding) (c : Char) : Option (List Char) :=
  if c.toNat < 128 then some [c]
  else match e with
    | utf8 => some [c]
    | latin1 => some ((String.utf8EncodeChar c).map fun b ↦ Char.ofNat b.toNat)
    | ascii => none

end Encoding

/-- What a declaration says. -/
structure Declaration where
  /-- The version of the rules. -/
  version : Version
  /-- The encoding, if it is declared. -/
  encoding : Option Encoding
deriving DecidableEq, Repr

namespace Declaration

/-- A word, an equals sign and a quoted value, with what follows them. -/
def pair? (cs : List Char) : Option (String × List Char × List Char) :=
  let name := cs.takeWhile Char.isAlpha
  match (cs.dropWhile Char.isAlpha).dropWhile isSpace with
  | '=' :: rest =>
    match rest.dropWhile isSpace with
    | quote :: rest =>
      if quote == '"' || quote == '\'' then
        match rest.dropWhile (· != quote) with
        | _ :: after => some (String.ofList name, rest.takeWhile (· != quote), after)
        | [] => none
      else none
    | [] => none
  | _ => none

/-- What follows a value: nothing, or white space before the next pair. -/
def next? (cs : List Char) : Option (List Char) :=
  match cs with
  | [] => some []
  | c :: _ => if isSpace c then some (cs.dropWhile isSpace) else none

/-- Reads the version. -/
def version? (cs : List Char) : Option (Version × List Char) :=
  match pair? (cs.dropWhile isSpace) with
  | some ("version", value, rest) =>
    if value == "1.0".toList then (next? rest).map fun rest ↦ (.first, rest)
    else if value == "1.1".toList then (next? rest).map fun rest ↦ (.second, rest)
    else none
  | _ => none

/-- Reads the encoding, if it is declared. -/
def encoding? (cs : List Char) : Option (Option Encoding × List Char) :=
  match pair? cs with
  | some ("encoding", value, rest) => do
    let encoding ← Encoding.parse? value
    let rest ← next? rest
    return (some encoding, rest)
  | _ => some (none, cs)

/-- Whether nothing is left but whether the document stands alone. -/
def isLast (cs : List Char) : Bool :=
  cs.isEmpty ||
    match pair? cs with
    | some ("standalone", value, rest) =>
      (value == "yes".toList || value == "no".toList) && next? rest == some []
    | _ => false

/-- Reads a declaration. -/
def parse? (cs : List Char) : Option Declaration := do
  let (version, rest) ← version? cs
  let (encoding, rest) ← encoding? rest
  if isLast rest then some ⟨version, encoding⟩ else none

end Declaration

end BlockScript.Markup

import BlockScript.Markup.Machine

/-!
# Reading one character of markup

`Machine.step?` says what one character does to a reader, part by part. It gives nothing when the
document breaks the rules.
-/

namespace BlockScript.Markup

/-- The state of a comment after one more character: dashes come in pairs only at its end, which
`none` stands for. -/
def commentStep (dashes : Nat) (c : Char) : Option (Option Nat) :=
  if dashes = 2 then if c == '>' then some none else none
  else some (some (if c == '-' then dashes + 1 else 0))

/-- The number of closing brackets after one more character, where two of them are not followed
by a greater-than sign. -/
def bracketStep? (brackets : Nat) (c : Char) : Option Nat :=
  if c == ']' then some (brackets + 1)
  else if c == '>' && 2 ≤ brackets then none
  else some 0

/-- Whether a name may go on with a character. -/
def continuesName (name : List Char) (c : Char) : Bool :=
  if name.isEmpty then isNameStart c else isNameChar c

/-- Whether a name is the one reserved for declarations, in any case. -/
def isReservedTarget (name : List Char) : Bool :=
  name.map Text.asciiLowerChar == "xml".toList

/-- What a reference means. -/
inductive Referent where
  | char (c : Char)
  | entity (text : String)
deriving DecidableEq, Repr

namespace Machine

/-- What a reference means, given its name in reverse. -/
def resolve? (m : Machine) (name : List Char) : Option Referent :=
  match name.reverse with
  | [] => none
  | '#' :: digits => (numericReference? m.version digits).map .char
  | cs =>
    let name := String.ofList cs
    match namedReference? name with
    | some c => some (.char c)
    | none => (m.entities.find? name).map .entity

/-! ### Document type declarations -/

/-- Reads a character of a document type declaration. -/
def doctypeStep? (m : Machine) (part : Doctype) (c : Char) : Option Machine :=
  let stay (part : Doctype) : Option Machine := some (m.goto (.doctype part))
  match part with
  | .outside brackets =>
    if c == '>' then if 2 ≤ brackets then none else some (m.goto (.text 0))
    else if c == '<' then stay .less
    else if c == '"' || c == '\'' then stay (.quoted c)
    else if c == '%' then none
    else stay (.outside (if c == ']' then brackets + 1 else 0))
  | .less =>
    if c == '!' then stay .bang
    else if c == '?' then stay (.instruction false)
    else if c == '/' || isNameChar c then stay (.outside 0)
    else none
  | .bang =>
    if c == '-' then stay .dash
    else if c == 'E' || c == 'A' || c == 'N' then stay (.word [c])
    else none
  | .dash => if c == '-' then stay (.comment 0) else none
  | .comment dashes =>
    (commentStep dashes c).bind fun next ↦
      match next with
      | some dashes => stay (.comment dashes)
      | none => stay (.outside 0)
  | .instruction question =>
    if question && c == '>' then stay (.outside 0) else stay (.instruction (c == '?'))
  | .quoted quote => if c == quote then stay (.outside 0) else stay part
  | .word letters =>
    if c.isUpper then stay (.word (c :: letters))
    else if isSpace c then
      let word := String.ofList letters.reverse
      if word == "ENTITY" then stay .entity
      else if ["NOTATION", "ELEMENT", "ATTLIST"].contains word then stay (.skip none)
      else none
    else none
  | .skip none =>
    if c == '>' then stay (.outside 0)
    else if c == '<' then none
    else if c == '"' || c == '\'' then stay (.skip (some c))
    else stay part
  | .skip (some quote) => if c == quote then stay (.skip none) else stay part
  | .entity =>
    if isSpace c then stay part
    else if c == '%' then stay (.skip none)
    else if isNameStart c then stay (.entityName [c])
    else none
  | .entityName name =>
    if isSpace c then stay (.entityText (String.ofList name.reverse))
    else if isNameChar c then stay (.entityName (c :: name))
    else none
  | .entityText name =>
    if isSpace c then stay part
    else if c == 'S' || c == 'P' then
      some ((m.declareEntity name "").goto (.doctype (.skip none)))
    else if c == '"' || c == '\'' then stay (.entityValue name c [])
    else none
  | .entityValue name quote text =>
    if c == quote then
      some ((m.declareEntity name (String.ofList text.reverse)).goto (.doctype (.skip none)))
    else if c == '&' then stay (.entityAmpersand name quote text)
    else if c == '%' || !m.version.allows c then none
    else stay (.entityValue name quote (c :: text))
  | .entityAmpersand name quote text =>
    if c == '#' then stay (.entityNumber name quote text [])
    else if !m.version.allows c then none
    else stay (.entityValue name quote (c :: '&' :: text))
  | .entityNumber name quote text digits =>
    if c == ';' then
      (numericReference? m.version digits.reverse).bind fun meant ↦
        stay (.entityValue name quote (meant :: text))
    else stay (.entityNumber name quote text (c :: digits))

/-! ### Instructions -/

/-- Ends the declaration of the document. -/
def declare? (m : Machine) (text : List Char) : Option Machine :=
  (Declaration.parse? text).bind fun d ↦ some { m with
    mode := .text 0
    started := true
    version := d.version
    encoding := d.encoding.getD m.encoding }

/-- Reads a character of the name of an instruction. -/
def targetStep? (m : Machine) (name : List Char) (c : Char) : Option Machine :=
  if continuesName name c then some (m.goto (.target (c :: name)))
  else if c == '?' then some (m.goto (.targetEnd name))
  else if isSpace c then
    if name.reverse == "xml".toList && !m.started then some (m.goto (.declaration []))
    else if isReservedTarget name.reverse then none
    else some (m.goto (.instruction false))
  else none

/-! ### Tags -/

/-- Reads a character between the attributes of a tag. -/
def tagStep? (m : Machine) (tag : Tag) (c : Char) : Option Machine :=
  if isSpace c then some (m.goto (.tag tag))
  else if c == '>' then m.openElement? tag true
  else if c == '/' then some (m.goto (.slash tag))
  else none

/-- Reads a character of the name of a start tag. -/
def openNameStep? (m : Machine) (name : List Char) (c : Char) : Option Machine :=
  if isNameChar c then some (m.goto (.openName (c :: name)))
  else do
    let name ← (Name.parse? name.reverse).filter Name.isElementName
    m.tagStep? ⟨name, [], []⟩ c

/-- Reads a character of the name of an end tag. -/
def closeNameStep? (m : Machine) (name : List Char) (c : Char) : Option Machine :=
  if continuesName name c then some (m.goto (.closeName (c :: name)))
  else do
    let name ← (Name.parse? name.reverse).filter Name.isElementName
    if isSpace c then some (m.goto (.closeEnd name))
    else if c == '>' then m.closeElement? name
    else none

/-- Reads a character of the name of an attribute. -/
def attributeStep? (m : Machine) (tag : Tag) (name : List Char) (c : Char) : Option Machine :=
  if isNameChar c then some (m.goto (.attribute tag (c :: name)))
  else do
    let name ← Name.parse? name.reverse
    if tag.attributes.any fun a ↦ a.1 = name then none
    else if c == '=' then some (m.goto (.valueStart tag name))
    else if isSpace c then some (m.goto (.attributeEnd tag name))
    else none

/-- Reads a character of the value of an attribute. -/
def valueStep? (m : Machine) (tag : Tag) (v : Value) (brackets : Nat) (c : Char) :
    Option Machine :=
  if c == v.quote then
    (addAttribute? tag v.name (String.ofList v.text.reverse)).map fun tag ↦ m.goto (.valueEnd tag)
  else if c == '&' then some (m.goto (.valueReference tag v []))
  else if c == '<' then some (m.goto (.valueLess tag v))
  else if !m.version.allowsPlain c then none
  else (bracketStep? brackets c).map fun brackets ↦
    m.goto (.value tag { v with text := c :: v.text } brackets)

/-- Reads a character of a reference in the value of an attribute. -/
def valueReferenceStep? (m : Machine) (tag : Tag) (v : Value) (name : List Char) (c : Char) :
    Option Machine :=
  if c == ';' then
    (m.resolve? name).map fun referent ↦
      let meant := match referent with
        | .char c => [c]
        | .entity text => text.toList.reverse
      m.goto (.value tag { v with text := meant ++ v.text } 0)
  else if continuesName name c || (name.isEmpty && c == '#') then
    some (m.goto (.valueReference tag v (c :: name)))
  else none

/-! ### Text -/

/-- Reads a character of text. Outside all elements there is only white space. -/
def textStep? (m : Machine) (brackets : Nat) (c : Char) : Option Machine :=
  if c == '<' then some (m.goto .less)
  else if m.isOutside then
    if isSpace c then some { m with mode := .text 0, started := true } else none
  else if c == '&' then some (m.goto (.reference []))
  else if !m.version.allowsPlain c then none
  else (bracketStep? brackets c).map fun brackets ↦ m.goto (.text brackets)

/-- Reads a character of a reference in text. -/
def referenceStep? (m : Machine) (name : List Char) (c : Char) : Option Machine :=
  if c == ';' then
    (m.resolve? name).map fun referent ↦
      match referent with
      | .char _ => m.goto (.text 0)
      | .entity text => { m with mode := .text 0, expansion := some text }
  else if continuesName name c || (name.isEmpty && c == '#') then
    some (m.goto (.reference (c :: name)))
  else none

/-- Reads the character after a less-than sign. -/
def lessStep? (m : Machine) (c : Char) : Option Machine :=
  if c == '?' then some (m.goto (.target []))
  else if c == '!' then some (m.goto .bang)
  else if c == '/' then if m.isOutside then none else some (m.goto (.closeName []))
  else if isNameStart c then some (m.goto (.openName [c]))
  else none

/-- Reads the character after a less-than sign and an exclamation mark. -/
def bangStep? (m : Machine) (c : Char) : Option Machine :=
  if c == '-' then some (m.goto .dash)
  else if c == '[' then
    if m.isOutside then none else some (m.goto (.sectionMark "CDATA[".toList))
  else if c == 'D' then
    if m.pastDoctype then none else some (m.goto (.doctypeMark "OCTYPE".toList))
  else none

/-! ### All parts -/

/-- Reads one character. -/
def step? (m : Machine) (c : Char) : Option Machine :=
  match m.mode with
  | .text brackets => m.textStep? brackets c
  | .less => m.lessStep? c
  | .bang => m.bangStep? c
  | .dash => if c == '-' then some { m with mode := .comment 0, started := true } else none
  | .comment dashes =>
    if !m.version.allows c then none
    else (commentStep dashes c).map fun next ↦
      match next with
      | some dashes => m.goto (.comment dashes)
      | none => m.goto (.text 0)
  | .sectionMark [] => none
  | .sectionMark (d :: rest) =>
    if c != d then none
    else if rest.isEmpty then some (m.goto (.characters 0))
    else some (m.goto (.sectionMark rest))
  | .characters brackets =>
    if c == '>' && 2 ≤ brackets then some (m.goto (.text 0))
    else if !m.version.allows c then none
    else some (m.goto (.characters (if c == ']' then brackets + 1 else 0)))
  | .doctypeMark [] => none
  | .doctypeMark (d :: rest) =>
    if c != d then none
    else if rest.isEmpty then
      some { m with mode := .doctype (.outside 0), started := true, pastDoctype := true }
    else some (m.goto (.doctypeMark rest))
  | .doctype part => m.doctypeStep? part c
  | .target name => m.targetStep? name c
  | .targetEnd name =>
    if c == '>' && !name.isEmpty && !isReservedTarget name.reverse then
      some { m with mode := .text 0, started := true }
    else none
  | .declaration text =>
    match c, text with
    | '>', '?' :: text => m.declare? text.reverse
    | c, text => some (m.goto (.declaration (c :: text)))
  | .instruction question =>
    if question && c == '>' then some { m with mode := .text 0, started := true }
    else if !m.version.allows c then none
    else some (m.goto (.instruction (c == '?')))
  | .openName name => m.openNameStep? name c
  | .tag tag =>
    if isNameStart c then some (m.goto (.attribute tag [c])) else m.tagStep? tag c
  | .slash tag => if c == '>' then m.openElement? tag false else none
  | .attribute tag name => m.attributeStep? tag name c
  | .attributeEnd tag name =>
    if isSpace c then some m
    else if c == '=' then some (m.goto (.valueStart tag name))
    else none
  | .valueStart tag name =>
    if isSpace c then some m
    else if c == '"' || c == '\'' then some (m.goto (.value tag ⟨name, c, []⟩ 0))
    else none
  | .value tag v brackets => m.valueStep? tag v brackets c
  | .valueLess tag v =>
    if c == '/' then some (m.goto (.value tag { v with text := '/' :: '<' :: v.text } 0)) else none
  | .valueReference tag v name => m.valueReferenceStep? tag v name c
  | .valueEnd tag => m.tagStep? tag c
  | .closeName name => m.closeNameStep? name c
  | .closeEnd name =>
    if isSpace c then some m
    else if c == '>' then m.closeElement? name
    else none
  | .reference name => m.referenceStep? name c

end Machine

end BlockScript.Markup

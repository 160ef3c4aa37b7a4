import BlockScript.Dict
import BlockScript.Markup.Declaration

/-!
# The state of a reader of markup

A document is read character by character. The machine remembers the part it is in (`Mode`), the
elements that are open, and what the document has shown so far. Of the elements only the
attributes of the first one are kept.
-/

namespace BlockScript.Markup

/-- A start tag while it is read. -/
structure Tag where
  /-- The name of the element. -/
  name : Name
  /-- The attributes in order. -/
  attributes : List (Name × String) := []
  /-- The namespaces the tag declares. -/
  declared : List String := []
deriving DecidableEq, Repr

/-- The value of an attribute while it is read, its characters in reverse. -/
structure Value where
  /-- The name of the attribute. -/
  name : Name
  /-- The quote mark around the value. -/
  quote : Char
  /-- The characters so far. -/
  text : List Char := []
deriving DecidableEq, Repr

/-- The parts of a document type declaration. -/
inductive Doctype where
  /-- Between its parts, after some closing brackets. -/
  | outside (brackets : Nat)
  /-- After a less-than sign. -/
  | less
  /-- After a less-than sign and an exclamation mark. -/
  | bang
  /-- After the first dash of a comment. -/
  | dash
  /-- In a comment, after some dashes. -/
  | comment (dashes : Nat)
  /-- In an instruction, after a question mark or not. -/
  | instruction (question : Bool)
  /-- In a quoted text. -/
  | quoted (quote : Char)
  /-- In the word that tells the kind of a declaration. -/
  | word (letters : List Char)
  /-- In a declaration that is skipped, inside quotes or not. -/
  | skip (quote : Option Char)
  /-- Before the name of an entity. -/
  | entity
  /-- In the name of an entity. -/
  | entityName (name : List Char)
  /-- Before the text of an entity. -/
  | entityText (name : String)
  /-- In the text of an entity. -/
  | entityValue (name : String) (quote : Char) (text : List Char)
  /-- After an ampersand in the text of an entity. -/
  | entityAmpersand (name : String) (quote : Char) (text : List Char)
  /-- In a numeric reference in the text of an entity. -/
  | entityNumber (name : String) (quote : Char) (text digits : List Char)
deriving DecidableEq, Repr

/-- The parts of a document. Names and texts are collected in reverse. -/
inductive Mode where
  /-- Text, after some closing brackets. -/
  | text (brackets : Nat)
  /-- After a less-than sign. -/
  | less
  /-- After a less-than sign and an exclamation mark. -/
  | bang
  /-- After the first dash of a comment. -/
  | dash
  /-- In a comment, after some dashes. -/
  | comment (dashes : Nat)
  /-- In the word that opens a character section. -/
  | sectionMark (rest : List Char)
  /-- In a character section, after some closing brackets. -/
  | characters (brackets : Nat)
  /-- In the word that opens a document type declaration. -/
  | doctypeMark (rest : List Char)
  /-- In a document type declaration. -/
  | doctype (part : Doctype)
  /-- In the name of an instruction. -/
  | target (name : List Char)
  /-- After a question mark behind the name of an instruction. -/
  | targetEnd (name : List Char)
  /-- In the declaration of the document. -/
  | declaration (text : List Char)
  /-- In an instruction, after a question mark or not. -/
  | instruction (question : Bool)
  /-- In the name of a start tag. -/
  | openName (name : List Char)
  /-- Between the attributes of a start tag. -/
  | tag (tag : Tag)
  /-- After the slash of a tag without content. -/
  | slash (tag : Tag)
  /-- In the name of an attribute. -/
  | attribute (tag : Tag) (name : List Char)
  /-- Between the name of an attribute and its equals sign. -/
  | attributeEnd (tag : Tag) (name : Name)
  /-- Between the equals sign of an attribute and its value. -/
  | valueStart (tag : Tag) (name : Name)
  /-- In the value of an attribute, after some closing brackets. -/
  | value (tag : Tag) (value : Value) (brackets : Nat)
  /-- After a less-than sign in the value of an attribute. -/
  | valueLess (tag : Tag) (value : Value)
  /-- In a reference in the value of an attribute. -/
  | valueReference (tag : Tag) (value : Value) (name : List Char)
  /-- After the value of an attribute. -/
  | valueEnd (tag : Tag)
  /-- In the name of an end tag. -/
  | closeName (name : List Char)
  /-- After the name of an end tag. -/
  | closeEnd (name : Name)
  /-- In a reference in text. -/
  | reference (name : List Char)
deriving DecidableEq, Repr

/-- A reader of markup. -/
structure Machine where
  /-- The part it is in. -/
  mode : Mode := .text 0
  /-- The open elements, innermost first, with the namespaces they declare. -/
  opened : List (Name × List String) := []
  /-- Whether anything was read after which no declaration of the document can come. -/
  started : Bool := false
  /-- Whether a document type declaration can no longer come. -/
  pastDoctype : Bool := false
  /-- The attributes of the first element. -/
  root : Option (Dict String) := none
  /-- The entities declared. -/
  entities : Dict String := ∅
  /-- The version of the rules. -/
  version : Version := .first
  /-- How the rest of the document is encoded. -/
  encoding : Encoding := .utf8
  /-- The text of an entity that is to be read before the rest. -/
  expansion : Option String := none
  /-- How many entities were expanded since the last character of the document itself. -/
  expanded : Nat := 0

namespace Machine

/-- The machine in another part of the document. -/
def goto (m : Machine) (mode : Mode) : Machine :=
  { m with mode }

/-- Whether the machine is outside all elements. -/
def isOutside (m : Machine) : Bool := m.opened.isEmpty

/-- Whether an abbreviation of a namespace is known, given those that a tag declares. -/
def knows (m : Machine) (declared : List String) (name : Name) : Bool :=
  match name.space with
  | none => true
  | some space =>
    reservedSpaces.contains space || declared.contains space ||
      m.opened.any fun element ↦ element.2.contains space

/-- Declares an entity; the first declaration of a name counts. -/
def declareEntity (m : Machine) (name text : String) : Machine :=
  if m.entities.contains name then m else { m with entities := m.entities.insert name text }

/-- The attributes of a tag by their names within their namespaces, of which later ones win. -/
def attributesOf (tag : Tag) : Dict String :=
  Dict.ofList (tag.attributes.map fun a ↦ (a.1.base, a.2))

/-- Ends a start tag, with content after it or without. -/
def openElement? (m : Machine) (tag : Tag) (hasContent : Bool) : Option Machine :=
  if m.knows tag.declared tag.name && tag.attributes.all fun a ↦ m.knows tag.declared a.1 then
    some { m with
      mode := .text 0
      opened := if hasContent then (tag.name, tag.declared) :: m.opened else m.opened
      started := true
      pastDoctype := true
      root := m.root.or (some (attributesOf tag)) }
  else none

/-- Ends an end tag, which has to name the innermost open element. -/
def closeElement? (m : Machine) (name : Name) : Option Machine :=
  match m.opened with
  | (top, _) :: rest => if name = top then some { m with mode := .text 0, opened := rest } else none
  | [] => none

/-- Adds an attribute to a tag. Attributes of some names declare namespaces; a declaration is
neither empty nor for one of the reserved words. -/
def addAttribute? (tag : Tag) (name : Name) (value : String) : Option Tag :=
  if name.space = some "xmlns" then
    if name.base == "xmlns" || value.isEmpty then none
    else some { tag with declared := name.base :: tag.declared }
  else if name = ⟨none, "xmlns"⟩ then
    if reservedSpaces.contains value then none else some tag
  else some { tag with attributes := tag.attributes ++ [(name, value)] }

end Machine

end BlockScript.Markup

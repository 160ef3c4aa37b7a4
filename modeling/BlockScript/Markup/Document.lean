import BlockScript.Markup.Step

/-!
# Documents

Reading a whole document. An entity in the text of an element is read as if its text stood there
itself, which may bring further entities, up to a limit of their number.
-/

namespace BlockScript.Markup

/-- How many entities may be expanded inside one reference of the document. -/
def expansionLimit : Nat := 10

namespace Machine

/-- Reads the text of an entity that a step has asked for. -/
def expand? (read : Machine → List Char → Option Machine) (m : Machine) : Option Machine :=
  match m.expansion with
  | none => some m
  | some text =>
    if text.isEmpty then some { m with expansion := none }
    else if m.expanded = expansionLimit then none
    else read { m with expansion := none, expanded := m.expanded + 1 } text.toList

/-- Reads characters, where entities may be nested up to a bound. -/
def feed? : Nat → Machine → List Char → Option Machine
  | 0 => fun _ _ ↦ none
  | bound + 1 => fun m cs ↦ cs.foldlM (fun m c ↦ (m.step? c).bind (expand? (feed? bound))) m

/-- Reads one character of the document itself, by its encoding. -/
def readChar? (m : Machine) (c : Char) : Option Machine := do
  let cs ← m.encoding.read? c
  feed? (expansionLimit + 1) { m with expanded := 0 } cs

/-- The attributes of the first element, when the document may end here. -/
def finish? (m : Machine) : Option (Dict String) :=
  match m.mode with
  | .text _ => if m.isOutside then m.root else none
  | _ => none

end Machine

/-- The text without the mark of byte order in front. -/
def dropMark (cs : List Char) : List Char :=
  match cs with
  | c :: rest => if c.toNat = 0xFEFF then rest else cs
  | [] => []

/-- The attributes of the first element of a document, if the document keeps the rules. -/
def rootAttributes? (text : String) : Option (Dict String) := do
  let m ← (dropMark text.toList).foldlM Machine.readChar? {}
  m.finish?

end BlockScript.Markup

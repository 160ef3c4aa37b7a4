import BlockScript.Graph.Target
import BlockScript.Text.Basic
import BlockScript.Text.Case
import BlockScript.Text.Digest

/-!
# Declared symbols

The names a target declares, in four tables. Names are looked up by their lower-case form, and
the first declaration of a name fixes its spelling and its initial value. A sprite sees the
variables and lists of the stage, but declares its broadcasts and procedures itself.

Variables and lists are numbered from one sequence, the same that numbers blocks. The identifier
of a broadcast depends on its name alone, so that all targets agree on it, and a procedure is
identified by its signature.
-/

namespace BlockScript

/-- The four tables of symbols. -/
inductive SymbolKind where
  | vars
  | lists
  | broadcasts
  | procedures
deriving DecidableEq, Repr

namespace SymbolKind

/-- The table a catalog names. -/
def parse? (s : String) : Option SymbolKind :=
  if s == "variables" then some vars
  else if s == "lists" then some lists
  else if s == "broadcasts" then some broadcasts
  else if s == "procedures" then some procedures
  else none

/-- The name a symbol gets when none is given. -/
def fallbackName : SymbolKind → String
  | vars => "my variable"
  | lists => "my list"
  | broadcasts => "message1"
  | procedures => "my_block"

/-- Whether sprites see the symbols of the stage. -/
def isShared : SymbolKind → Bool
  | vars => true
  | lists => true
  | _ => false

end SymbolKind

/-! ### Identifiers -/

/-- A digit of base 36. -/
def base36Digit (n : Nat) : Char :=
  if n < 10 then Char.ofNat (48 + n) else Char.ofNat (87 + n)

/-- The digits of a number in base 36 in front of `tail`; `bound` is at least their number. -/
def base36Onto : Nat → Nat → List Char → List Char
  | 0, _, tail => tail
  | bound + 1, n, tail =>
    if n < 36 then base36Digit n :: tail
    else base36Onto bound (n / 36) (base36Digit (n % 36) :: tail)

/-- A number in base 36. -/
def base36 (n : Nat) : String :=
  String.ofList (base36Onto (n + 1) n [])

/-- The sequence that identifiers are drawn from. -/
structure IdSource where
  /-- How many identifiers were drawn. -/
  drawn : Nat := 0
deriving DecidableEq, Repr

/-- Draws the next identifier: a label and the number of the draw in base 36. -/
def IdSource.next (ids : IdSource) (label : String) : String × IdSource :=
  (label ++ "_" ++ base36 (ids.drawn + 1), ⟨ids.drawn + 1⟩)

/-- The identifier of a broadcast. -/
def broadcastId (name : String) : String :=
  "msg_" ++ String.ofList ((Text.digest ("broadcast:" ++ Text.lower name)).toList.take 16)

/-! ### Tables -/

/-- A name with the identifier and the initial value it was declared with. -/
structure Declaration where
  /-- What blocks refer to it by. -/
  id : String
  /-- The name in its first spelling. -/
  name : String
  /-- The initial value. -/
  value : String
deriving DecidableEq, Repr

/-- The tables of one target, each in the order of declaration. -/
structure SymbolTables where
  /-- The variables. -/
  vars : List Declaration := []
  /-- The lists. -/
  lists : List Declaration := []
  /-- The broadcasts. -/
  broadcasts : List Declaration := []
  /-- The procedures. -/
  procedures : List Declaration := []
deriving DecidableEq, Repr

namespace SymbolTables

/-- The table of a kind. -/
def get (t : SymbolTables) : SymbolKind → List Declaration
  | .vars => t.vars
  | .lists => t.lists
  | .broadcasts => t.broadcasts
  | .procedures => t.procedures

/-- Appends an entry to the table of a kind. -/
def append (t : SymbolTables) (entry : Declaration) : SymbolKind → SymbolTables
  | .vars => { t with vars := t.vars ++ [entry] }
  | .lists => { t with lists := t.lists ++ [entry] }
  | .broadcasts => { t with broadcasts := t.broadcasts ++ [entry] }
  | .procedures => { t with procedures := t.procedures ++ [entry] }

/-- The entry of a name. -/
def find? (t : SymbolTables) (kind : SymbolKind) (name : String) : Option Declaration :=
  (t.get kind).find? fun entry ↦ Text.lower entry.name == Text.lower name

end SymbolTables

/-- The symbols a target declares, with the tables it inherits, nearest first. -/
structure Symbols where
  /-- The symbols declared by the target itself. -/
  own : SymbolTables := {}
  /-- The tables of the targets around it. -/
  inherited : List SymbolTables := []
deriving DecidableEq, Repr

namespace Symbols

/-- The symbols of a target that inherits all that `outer` can see. -/
def within (outer : Symbols) : Symbols :=
  ⟨{}, outer.own :: outer.inherited⟩

/-- The symbol a name refers to, if it is declared. -/
def lookup? (s : Symbols) (kind : SymbolKind) (name : String) : Option Symbol :=
  let visible := if kind.isShared then s.own :: s.inherited else [s.own]
  (visible.findSome? (·.find? kind name)).map fun entry ↦ ⟨entry.id, entry.name⟩

/-- The identifier of a new symbol. -/
def newId (kind : SymbolKind) (name : String) (ids : IdSource) : String × IdSource :=
  match kind with
  | .vars => ids.next "var"
  | .lists => ids.next "lis"
  | .broadcasts => (broadcastId name, ids)
  | .procedures => (name, ids)

/-- The symbol a name refers to. A name seen for the first time is declared, with the given
initial value or zero. -/
def intern (s : Symbols) (kind : SymbolKind) (name initial : String) (ids : IdSource) :
    Symbol × Symbols × IdSource :=
  match s.lookup? kind name with
  | some known => (known, s, ids)
  | none =>
    let (id, ids) := newId kind name ids
    let entry : Declaration := ⟨id, name, Text.orElse initial "0"⟩
    (⟨id, name⟩, { s with own := s.own.append entry kind }, ids)

/-- The symbols of a kind that the target declares itself, in order. -/
def declared (s : Symbols) (kind : SymbolKind) : List Symbol :=
  (s.own.get kind).map fun entry ↦ ⟨entry.id, entry.name⟩

/-- The variables that the target declares itself, in order. -/
def declaredVariables (s : Symbols) : List Variable :=
  s.own.vars.map fun entry ↦ ⟨entry.id, entry.name, entry.value⟩

end Symbols

end BlockScript

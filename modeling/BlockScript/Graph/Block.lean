import BlockScript.Dict

/-!
# Blocks

A script is a graph of blocks. A block has an operation code, a successor, a parent, and *slots*
that hold either a literal or other blocks. A shadow block is the menu or prototype that a slot
falls back to; a slot that shows a computed value keeps its fallback underneath.
-/

namespace BlockScript

/-- What blocks refer to each other by. -/
abbrev BlockId := String

/-- The two kinds of targets that carry scripts. -/
inductive TargetKind where
  | stage
  | sprite
deriving DecidableEq, Repr

/-- How messages name a kind of target. -/
def TargetKind.label : TargetKind → String
  | .stage => "Stage"
  | .sprite => "sprite"

/-- The kinds of literals that a slot can hold. -/
inductive LiteralKind where
  | number
  | integer
  | angle
  | color
  | text
deriving DecidableEq, Repr

namespace LiteralKind

/-- The number that stands for a kind in a project. -/
def code : LiteralKind → Nat
  | number => 4
  | integer => 7
  | angle => 8
  | color => 9
  | text => 10

/-- The kind a number stands for. The two other numeric codes count as plain numbers, and
anything unknown as text. -/
def ofCode (n : Nat) : LiteralKind :=
  if 4 ≤ n && n ≤ 6 then number
  else if n = 7 then integer
  else if n = 8 then angle
  else if n = 9 then color
  else text

end LiteralKind

/-- A constant in a slot. -/
structure Literal where
  /-- What the constant is meant as. -/
  kind : LiteralKind
  /-- The constant as written. -/
  text : String
deriving DecidableEq, Repr

/-- A text constant. -/
def Literal.ofText (text : String) : Literal := ⟨.text, text⟩

/-- What a slot shows when its computed value is taken away. -/
inductive Fallback where
  | literal (value : Literal)
  | shadow (id : BlockId)
deriving DecidableEq, Repr

/-- The content of an input. -/
inductive Slot where
  /-- A constant. -/
  | literal (value : Literal)
  /-- A shadow block. -/
  | shadow (id : BlockId)
  /-- A computed value, or the first block of a sub-chain. -/
  | block (id : BlockId)
  /-- A computed value over a fallback. -/
  | covered (id : BlockId) (fallback : Fallback)
deriving DecidableEq, Repr

namespace Slot

/-- The block that computes the value of the slot. -/
def connected? : Slot → Option BlockId
  | block id => some id
  | covered id _ => some id
  | _ => none

/-- The shadow block of the slot. -/
def shadow? : Slot → Option BlockId
  | shadow id => some id
  | covered _ (.shadow id) => some id
  | _ => none

/-- The constant of the slot. -/
def literal? : Slot → Option Literal
  | literal value => some value
  | covered _ (.literal value) => some value
  | _ => none

/-- All blocks the slot owns, the computed value first. -/
def owned (s : Slot) : List BlockId :=
  s.connected?.toList ++ s.shadow?.toList

end Slot

/-- The content of a field: a text, bound to a declared symbol or not. -/
structure Field where
  /-- The text shown. -/
  text : String
  /-- The identifier of the symbol the text names. -/
  symbol : Option String := none
deriving DecidableEq, Repr

/-- A place on the script area. -/
structure Place where
  /-- The distance to the right. -/
  x : Int
  /-- The distance downwards. -/
  y : Int
deriving DecidableEq, Repr

/-- The procedure that a call or a prototype speaks of. -/
structure Procedure where
  /-- The signature. -/
  signature : String
  /-- The identifiers of the arguments. -/
  argumentIds : List String := []
  /-- The names of the arguments. -/
  argumentNames : List String := []
  /-- Whether the procedure runs without screen refresh. -/
  warp : Bool := false
deriving DecidableEq, Repr

/-- A node of a script. -/
structure Block where
  /-- What the block does. -/
  opcode : String
  /-- The block after it in its chain. -/
  next : Option BlockId := none
  /-- The block that holds it or comes before it. -/
  parent : Option BlockId := none
  /-- The slots by name. -/
  inputs : Dict Slot := ∅
  /-- The fields by name. -/
  fields : Dict Field := ∅
  /-- Whether the block is a fallback of a slot. -/
  shadow : Bool := false
  /-- The place of a block that starts a script. -/
  place : Option Place := none
  /-- The procedure the block is about. -/
  procedure : Option Procedure := none
deriving DecidableEq, Repr

namespace Block

/-- Whether the block starts a script. -/
def isTopLevel (b : Block) : Bool := b.place.isSome

/-- The text of a field. -/
def fieldText? (b : Block) (name : String) : Option String :=
  (b.fields.find? name).map Field.text

end Block

/-! ### Operation codes with a meaning of their own -/

namespace Opcode

/-- A conditional with one branch. -/
def ifThen : String := "control_if"

/-- A conditional with two branches. -/
def ifElse : String := "control_if_else"

/-- The head of a procedure. -/
def definition : String := "procedures_definition"

/-- The shadow block that carries the signature of a procedure. -/
def prototype : String := "procedures_prototype"

/-- A call of a procedure. -/
def call : String := "procedures_call"

/-- The head of a script that runs when the program starts. -/
def flagClicked : String := "event_whenflagclicked"

/-- The comparison `>`. -/
def greater : String := "operator_gt"

/-- The comparison `<`. -/
def less : String := "operator_lt"

/-- The comparison `=`. -/
def equals : String := "operator_equals"

/-- The negation of a condition. -/
def not : String := "operator_not"

/-- Both of two conditions. -/
def and : String := "operator_and"

/-- One of two conditions. -/
def or : String := "operator_or"

/-- The value of a text or number argument. -/
def argument : String := "argument_reporter_string_number"

/-- The value of a boolean argument. -/
def booleanArgument : String := "argument_reporter_boolean"

end Opcode

end BlockScript

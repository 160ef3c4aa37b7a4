import BlockScript.Dict
import BlockScript.Number.Decimal
import BlockScript.Text.Hex

/-!
# JSON values

The values of a JSON document. An object holds its fields in increasing order of their keys,
each key once: `Json.object` builds it so from any list of fields, and a repeated key keeps the
last value. A number is an integer when it is written as one and fits a machine word, signed or
unsigned, and a floating-point number otherwise.
-/

namespace BlockScript

/-- A number of a JSON document. -/
inductive JsonNumber where
  /-- An integer of one machine word. -/
  | integer (value : Int)
  /-- Any other number. -/
  | float (value : Binary64)
deriving DecidableEq, Repr

/-- A JSON value. -/
inductive Json where
  | null
  | bool (value : Bool)
  | num (value : JsonNumber)
  | str (value : String)
  | arr (items : List Json)
  | obj (fields : List (String × Json))
deriving Repr

instance : Inhabited Json := ⟨.null⟩

namespace Json

/-! ### Construction -/

/-- An integer. -/
def int (i : Int) : Json := .num (.integer i)

/-- A natural number. -/
def nat (n : Nat) : Json := .num (.integer n)

/-- The object with the given fields, of which later ones win. -/
def object (fields : List (String × Json)) : Json :=
  .obj (Dict.ofList fields).entries

/-- The object with the values of a dictionary. -/
def ofDict (fields : Dict Json) : Json :=
  .obj fields.entries

/-- The value in an option, or null. -/
def ofOption {α : Type} (f : α → Json) : Option α → Json
  | none => .null
  | some a => f a

/-- The fields of `extra` put into an object. -/
def extend (value : Json) (extra : List (String × Json)) : Json :=
  match value with
  | .obj fields => .obj (extra.foldl (fun l entry ↦ Dict.put entry.1 entry.2 l) fields)
  | other => other

/-! ### Access -/

/-- The value of a field of an object. -/
def get? (value : Json) (key : String) : Option Json :=
  match value with
  | .obj fields => Dict.lookup key fields
  | _ => none

/-- The text of a string. -/
def asStr? : Json → Option String
  | .str s => some s
  | _ => none

/-- The truth value of a boolean. -/
def asBool? : Json → Option Bool
  | .bool b => some b
  | _ => none

/-- The items of an array. -/
def asArr? : Json → Option (List Json)
  | .arr items => some items
  | _ => none

/-- The fields of an object. -/
def asObj? : Json → Option (List (String × Json))
  | .obj fields => some fields
  | _ => none

/-- The value of an integer that is not negative. -/
def asNat? : Json → Option Nat
  | .num (.integer i) => if 0 ≤ i then some i.toNat else none
  | _ => none

/-- The value of a number, rounded if it is an integer. -/
def asBinary64? : Json → Option Binary64
  | .num (.integer i) => some (Binary64.ofInt i)
  | .num (.float x) => some x
  | _ => none

/-- The text of a string field. -/
def getStr? (value : Json) (key : String) : Option String :=
  (value.get? key).bind asStr?

/-- The truth value of a boolean field. -/
def getBool? (value : Json) (key : String) : Option Bool :=
  (value.get? key).bind asBool?

/-- The items of an array field. -/
def getArr? (value : Json) (key : String) : Option (List Json) :=
  (value.get? key).bind asArr?

/-- The fields of an object field. -/
def getObj? (value : Json) (key : String) : Option (List (String × Json)) :=
  (value.get? key).bind asObj?

end Json

end BlockScript

import BlockScript.Number.Text
import BlockScript.Text.Case
import BlockScript.Token.Basic

/-!
# Words of a listing

How names, numbers and initial values are written in a listing, and in which order names are
listed.
-/

namespace BlockScript.Listing

/-- A number for a numeric slot: the text if it is one, else the fallback, else zero. -/
def numeric (text fallback : String) : String :=
  match (Number.parse? text).or (Number.parse? fallback) with
  | some n => Number.format n
  | none => "0"

/-- The initial value of a variable: a number in its own form, and any other text as a token. -/
def initialValue (text : String) : String :=
  if Text.isBlank text then Token.format text
  else match Number.parse? text with
    | some n => Number.format n
    | none => Token.format text

/-- Characters the name of a code section may hold without being quoted. -/
def isHeaderChar (c : Char) : Bool :=
  c.isAlphanum || c == '_' || c == '-'

/-- The word that opens the code section of a sprite. -/
def codeHeader (name : String) : String :=
  let safe := Text.nameOr name "Sprite"
  if safe.toList.all isHeaderChar then safe ++ "_code"
  else String.ofList ('"' :: Chars.escape safe.toList ++ ['"']) ++ "_code"

/-- Whether one name is listed before another: names are compared in lower case first, and as
they are written where that makes no difference. -/
def comesBefore (a b : String) : Bool :=
  Text.lower a < Text.lower b || (Text.lower a == Text.lower b && a ≤ b)

/-- A command with its arguments. -/
def commandLine (name : String) (args : List String) : String :=
  Text.join " " (name :: args)

/-- The arguments by their positions, with a text put at one of them. -/
def putAt (position : Nat) (text : String) : List (Nat × String) → List (Nat × String)
  | [] => [(position, text)]
  | entry :: rest =>
    if position < entry.1 then (position, text) :: entry :: rest
    else if position = entry.1 then (position, text) :: rest
    else entry :: putAt position text rest

/-- The arguments from first to last; empty ones are left out. -/
def argumentTexts (args : List (Nat × String)) : List String :=
  (args.map (·.2)).filter (!·.isEmpty)

end BlockScript.Listing

import BlockScript.Token.Basic

/-!
# Calls and comparisons

An embedded expression is written `name(argument, …)`, with an optional `@` in front where the
slot would otherwise take it for a literal. A condition may instead be a comparison of two
operands. Both are recognised on the text of a single slot, by the top-level reader of
`BlockScript.Token.Scan`.
-/

namespace BlockScript

/-! ### Calls -/

/-- A command name with its argument texts. -/
structure Call where
  /-- The name as written. -/
  name : String
  /-- The arguments, trimmed and without surrounding quotes. -/
  args : List String
deriving DecidableEq, Repr

/-- Whether a name can stand in front of an argument list: a letter or underscore, then
letters, digits, underscores and hyphens. -/
def Chars.isIdentifier : List Char → Bool
  | [] => false
  | c :: cs => (c.isAlpha || c == '_') && cs.all fun d ↦ d.isAlphanum || d == '_' || d == '-'

namespace Call

/-- Reads `name(argument, …)`. A text with no parenthesis is a call without arguments; one with
a parenthesis that does not end in `)` is no call, and is returned trimmed. -/
def parse (text : String) : Except String Call :=
  let value := Chars.trim text.toList
  let name := value.takeWhile (· != '(')
  match value.dropWhile (· != '(') with
  | [] => .ok ⟨String.ofList value, []⟩
  | _ :: rest =>
    if value.getLast? == some ')' then
      .ok ⟨String.ofList (Chars.trim name),
        (Chars.splitArguments rest.dropLast).map fun arg ↦ String.ofList (Chars.unquote arg)⟩
    else .error (String.ofList value)

/-- Whether a text is shaped like one call: an identifier, then a parenthesis that closes at
the very end. -/
def isShaped (text : String) : Bool :=
  let value := Chars.trim text.toList
  let head := value.takeWhile (· != '(')
  let tail := value.dropWhile (· != '(')
  value.head? != some '@' && !head.isEmpty && Chars.isIdentifier (Chars.trim head) &&
    match Scan.closing? {} tail with
    | some (_, rest) => rest.isEmpty
    | none => false

/-- The trimmed text without one leading `@`. -/
def dropMarker (text : String) : String :=
  match Chars.trim text.toList with
  | '@' :: rest => String.ofList rest
  | value => String.ofList value

end Call

/-! ### Comparisons -/

/-- The comparison signs. -/
inductive Relation where
  | atLeast
  | atMost
  | notEqual
  | sameAs
  | greater
  | less
  | equal
deriving DecidableEq, Repr

namespace Relation

/-- How a comparison sign is written. -/
def symbol : Relation → String
  | atLeast => ">="
  | atMost => "<="
  | notEqual => "!="
  | sameAs => "=="
  | greater => ">"
  | less => "<"
  | equal => "="

/-- All signs, those of two characters first, so that `>=` is never read as `>`. -/
def all : List Relation :=
  [atLeast, atMost, notEqual, sameAs, greater, less, equal]

/-- The sign written so. -/
def ofSymbol? (s : String) : Option Relation :=
  all.find? (·.symbol == s)

end Relation

/-- Two operand texts with a comparison sign between them. -/
structure Comparison where
  /-- The trimmed text before the sign. -/
  left : String
  /-- The sign. -/
  relation : Relation
  /-- The trimmed text after the sign. -/
  right : String
deriving DecidableEq, Repr

/-- Splits a text at the first comparison sign of its top level. Both sides have to hold more
than white space. -/
def Comparison.split? (text : String) : Option Comparison := do
  let value := Chars.trim text.toList
  let (before, sign, after) ← Scan.find? (Relation.all.map fun r ↦ r.symbol.toList) {} value
  let left := Chars.trim before
  let right := Chars.trim after
  if left.isEmpty || right.isEmpty then none
  else
    let relation ← Relation.ofSymbol? (String.ofList sign)
    return ⟨String.ofList left, relation, String.ofList right⟩

end BlockScript

import BlockScript.Text.Basic

/-!
# Reading quotes and parentheses

One small machine reads a text character by character and knows at each place whether it
stands inside quotes and how deep in parentheses. Every splitter of this library is this
machine with a choice of what to look for at the *top level*, that is outside quotes and at
depth zero:

* `Scan.pieces` cuts a text at the separators of the top level;
* `Scan.find?` finds the first operator of the top level;
* `Scan.closing?` finds the parenthesis that closes the first one.

The machine never fails. A quote that is not closed runs to the end of the text, and a closing
parenthesis with nothing to close leaves the depth at zero.
-/

namespace BlockScript

/-- What the reader of a text knows after some of its characters. -/
structure Scan where
  /-- The mark that opened the quoted run the reader is in. -/
  quote : Option Char := none
  /-- Whether the character before, inside quotes, was a backslash that escapes the next. -/
  escaped : Bool := false
  /-- The number of parentheses open outside quotes. -/
  depth : Nat := 0
  /-- The character before. -/
  previous : Option Char := none
deriving DecidableEq, Repr

/-- The two characters that open and close a quoted run. -/
def isQuoteMark (c : Char) : Bool :=
  c == '"' || c == '\x27'

namespace Scan

/-- Whether a character opens, continues or closes a quoted run. A mark after a backslash opens
none. -/
def quotes (s : Scan) (c : Char) : Bool :=
  s.quote.isSome || (isQuoteMark c && s.previous != some '\\')

/-- Reads one character. -/
def step (s : Scan) (c : Char) : Scan :=
  match s.quote with
  | some mark =>
    if s.escaped then { s with escaped := false, previous := some c }
    else if c = '\\' then { s with escaped := true, previous := some c }
    else if c = mark then { s with quote := none, previous := some c }
    else { s with previous := some c }
  | none =>
    if s.quotes c then { s with quote := some c, previous := some c }
    else if c = '(' then { s with depth := s.depth + 1, previous := some c }
    else if c = ')' then { s with depth := s.depth - 1, previous := some c }
    else { s with previous := some c }

/-- Reads several characters. -/
def run (s : Scan) (cs : List Char) : Scan :=
  cs.foldl step s

/-- Whether a character, read next, stands at the top level. A closing parenthesis that brings
the depth back to zero does. -/
def isTop (s : Scan) (c : Char) : Bool :=
  !s.quotes c && (s.step c).depth == 0

/-- The parts of a text between the separators of its top level, empty parts included. -/
def pieces (isSeparator : Char → Bool) (s : Scan) : List Char → List (List Char)
  | [] => [[]]
  | c :: cs =>
    if isSeparator c && s.isTop c then [] :: pieces isSeparator (s.step c) cs
    else (pieces isSeparator (s.step c) cs).modifyHead (c :: ·)

/-- The first operator of the top level, with the text before it and the text after it. At one
place the operators are tried in the order given; no operator starts at a parenthesis. -/
def find? (operators : List (List Char)) (s : Scan) :
    List Char → Option (List Char × List Char × List Char)
  | [] => none
  | c :: cs =>
    let later := (find? operators (s.step c) cs).map fun found ↦ (c :: found.1, found.2)
    if s.isTop c && c != '(' && c != ')' then
      match operators.find? (·.isPrefixOf (c :: cs)) with
      | some operator => some ([], operator, (c :: cs).drop operator.length)
      | none => later
    else later

/-- The text before and after the first closing parenthesis of the top level. -/
def closing? (s : Scan) : List Char → Option (List Char × List Char)
  | [] => none
  | c :: cs =>
    if c == ')' && s.isTop c then some ([], cs)
    else (closing? (s.step c) cs).map fun halves ↦ (c :: halves.1, halves.2)

/-- Reading two texts one after the other is reading their concatenation. -/
@[simp]
theorem run_append (s : Scan) (as bs : List Char) : s.run (as ++ bs) = (s.run as).run bs := by
  simp [run]

end Scan

end BlockScript

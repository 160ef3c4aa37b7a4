import BlockScript.Token.Scan

/-!
# Tokens of a line

A statement line is a row of tokens separated by white space, where white space inside quotes
or parentheses separates nothing. A token that is not made of plain characters only is written
in double quotes, with a backslash before each double quote and each backslash (`Token.format`);
reading drops one pair of quotes of either kind and resolves the escapes (`Token.unquote`).
-/

namespace BlockScript

namespace Chars

/-! ### Reading -/

/-- The tokens of a line with their quotes. -/
def splitLine (cs : List Char) : List (List Char) :=
  (Scan.pieces Text.isWhite {} cs).filter (!·.isEmpty)

/-- The arguments between the parentheses of a call, separated by commas. Nothing at all is no
argument, rather than one empty argument. -/
def splitArguments (cs : List Char) : List (List Char) :=
  if cs.isEmpty then [] else Scan.pieces (· == ',') {} cs

/-- Resolves escapes: a backslash before a quote mark or another backslash is dropped, and any
other backslash stands for itself. -/
def unescape : List Char → List Char
  | [] => []
  | [c] => [c]
  | c :: d :: cs =>
    if c == '\\' && (isQuoteMark d || d == '\\') then d :: unescape cs
    else c :: unescape (d :: cs)

/-- Whether a text starts and ends with the same quote mark. -/
def isWrapped (cs : List Char) : Bool :=
  match cs with
  | [] => false
  | [_] => false
  | c :: rest => isQuoteMark c && rest.getLast? == some c

/-- The trimmed text, without the pair of quotes around it if there is one. -/
def unquote (cs : List Char) : List Char :=
  let trimmed := trim cs
  if isWrapped trimmed then unescape (trimmed.drop 1).dropLast else trimmed

/-! ### Writing -/

/-- Characters a token may hold without being quoted. -/
def isPlain (c : Char) : Bool :=
  c.isAlphanum || c == '_' || c == '.' || c == ':' || c == '+' || c == '-' || c == '#'

/-- Puts a backslash before each double quote and each backslash. -/
def escape (cs : List Char) : List Char :=
  cs.flatMap fun c ↦ if c == '\\' || c == '"' then ['\\', c] else [c]

/-- A text as a token: bare when all its characters are plain and it has any, else quoted. -/
def formatToken (cs : List Char) : List Char :=
  if !cs.isEmpty && cs.all isPlain then cs else '"' :: escape cs ++ ['"']

end Chars

namespace Token

/-- The tokens of a line with their quotes. -/
def splitLine (line : String) : List String :=
  (Chars.splitLine line.toList).map String.ofList

/-- The trimmed text, without the pair of quotes around it if there is one. -/
def unquote (s : String) : String :=
  String.ofList (Chars.unquote s.toList)

/-- The tokens of a line without their quotes. -/
def tokenize (line : String) : List String :=
  (splitLine line).map unquote

/-- Whether a text, trimmed, is wrapped in a pair of quotes. -/
def isQuoted (s : String) : Bool :=
  Chars.isWrapped (Chars.trim s.toList)

/-- The arguments between the parentheses of a call, untrimmed. -/
def splitArguments (s : String) : List String :=
  (Chars.splitArguments s.toList).map String.ofList

/-- The byte position of the first operator of the top level, and that operator. -/
def findTop? (s : String) (operators : List String) : Option (Nat × String) :=
  (Scan.find? (operators.map String.toList) {} s.toList).map fun found ↦
    (Chars.byteLength found.1, String.ofList found.2.1)

/-- The byte position of the parenthesis that closes the one at byte position `start`. -/
def closingParen? (s : String) (start : Nat) : Option Nat :=
  match Chars.dropBytes? start s.toList with
  | some ('(' :: cs) =>
    (Scan.closing? {} ('(' :: cs)).map fun halves ↦ start + Chars.byteLength halves.1
  | _ => none

/-- A text as a token that reads back as the same text. -/
def format (s : String) : String :=
  String.ofList (Chars.formatToken s.toList)

/-- The width of a line's indentation: a space counts one column and a tab two. -/
def indentWidth (line : String) : Nat :=
  total ((line.toList.takeWhile fun c ↦ c == ' ' || c == '\t').map
    fun c ↦ if c == '\t' then 2 else 1)

end Token

end BlockScript

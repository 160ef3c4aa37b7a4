import BlockScript.Number.Total

/-!
# Code trees

A code gives each symbol a row of bits such that no row starts another one. It is told by the
lengths of the rows alone: shorter rows come first, and rows of one length are consecutive numbers
in the order of their symbols.
-/

namespace BlockScript

/-- A code as the tree of its rows of bits. -/
inductive CodeTree where
  | empty
  | leaf (symbol : Nat)
  | node (zero one : CodeTree)
deriving Repr

namespace CodeTree

/-- Adds the row of bits of a symbol. -/
def insert (symbol : Nat) : List Bool → CodeTree → CodeTree
  | [], _ => .leaf symbol
  | bit :: bits, tree =>
    let (zero, one) := match tree with
      | .node zero one => (zero, one)
      | _ => (.empty, .empty)
    if bit then .node zero (insert symbol bits one) else .node (insert symbol bits zero) one

/-- The greatest length of a row. -/
def maxLength : Nat := 15

/-- The low `width` bits of a number, most significant first. -/
def bitsOf (width n : Nat) : List Bool :=
  (List.range width).map fun i ↦ n.testBit (width - 1 - i)

/-- The symbols with rows of some length. -/
def symbolsOf (lengths : List Nat) (length : Nat) : List Nat :=
  (lengths.zipIdx.filter (·.1 = length)).map (·.2)

/-- Adds the rows of one length to a tree: the number of the first row of the next length is
carried along. -/
def addLength (lengths : List Nat) (state : CodeTree × Nat) (length : Nat) : CodeTree × Nat :=
  let (tree, first) := state
  let symbols := symbolsOf lengths length
  let tree := symbols.zipIdx.foldl (fun tree entry ↦
    insert entry.1 (bitsOf length (first + entry.2)) tree) tree
  (tree, 2 * (first + symbols.length))

/-- Whether lengths make a code that uses all rows of bits. A code of at most one symbol need
not. -/
def isComplete (lengths : List Nat) : Bool :=
  let used := lengths.filter (0 < ·)
  used.length ≤ 1 ||
    total (used.map fun length ↦ Nat.pow 2 (maxLength - length)) = Nat.pow 2 maxLength

/-- The code with rows of the given lengths; a length of zero is no row. -/
def ofLengths? (lengths : List Nat) : Option CodeTree :=
  if isComplete lengths then
    some ((((List.range maxLength).map (· + 1)).foldl (addLength lengths) (.empty, 0)).1)
  else none

end CodeTree

end BlockScript

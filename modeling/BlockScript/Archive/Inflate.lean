import BlockScript.Archive.Huffman

/-!
# Decompression

Reading compressed bytes: a row of blocks, each either stored as it is or made of symbols that
stand for bytes and for copies of what was written before. Input that ends too soon ends the
output; only input that breaks the rules is refused.
-/

namespace BlockScript.Inflate

/-- Why reading stops. -/
inductive Stop where
  /-- There is no more input. -/
  | exhausted
  /-- The input breaks the rules. -/
  | corrupt
deriving DecidableEq, Repr

/-- What is left to read, and what was written. -/
structure State where
  /-- The bits to read, the low bits of a byte first. -/
  bits : List Bool
  /-- The bytes written. -/
  output : Array UInt8 := #[]

/-- Reading from bits and writing bytes. -/
abbrev Reader := EStateM Stop State

/-! ### Bits -/

/-- The bits of bytes, the low bits of a byte first. -/
def bitsOf (bytes : List UInt8) : List Bool :=
  bytes.flatMap fun b ↦ (List.range 8).map b.toNat.testBit

/-- The number that bits stand for, the low bit first. -/
def number (bits : List Bool) : Nat :=
  bits.foldr (fun bit n ↦ 2 * n + (if bit then 1 else 0)) 0

/-- Reads a number of some bits. -/
def take (width : Nat) : Reader Nat := do
  let s ← get
  let bits := s.bits.take width
  if bits.length < width then
    throw .exhausted
  set { s with bits := s.bits.drop width }
  return number bits

/-- Drops the bits that are left of a byte. -/
def align : Reader Unit :=
  modify fun s ↦ { s with bits := s.bits.drop (s.bits.length % 8) }

/-- Follows bits down a tree to a symbol; gives the symbol and the bits after it. -/
def walk : CodeTree → List Bool → Except Stop (Nat × List Bool)
  | .leaf symbol, bits => .ok (symbol, bits)
  | .empty, _ => .error .corrupt
  | .node _ _, [] => .error .exhausted
  | .node zero one, bit :: bits => if bit then walk one bits else walk zero bits

/-- Reads a symbol. -/
def symbol (tree : CodeTree) : Reader Nat := do
  let s ← get
  match walk tree s.bits with
  | .ok (symbol, bits) =>
    set { s with bits }
    return symbol
  | .error stop => throw stop

/-! ### Output -/

/-- Writes a byte. -/
def emit (b : UInt8) : Reader Unit :=
  modify fun s ↦ { s with output := s.output.push b }

/-- Writes bytes that were written before, from some distance back on. -/
def copy (distance : Nat) : Nat → Reader Unit
  | 0 => pure ()
  | length + 1 => do
    match (← get).output[(← get).output.size - distance]? with
    | some b => emit b
    | none => throw .corrupt
    copy distance length

/-! ### Symbols -/

/-- The least lengths of copies, by symbol, and the number of bits that add to each. -/
def lengths : List (Nat × Nat) :=
  [(3, 0), (4, 0), (5, 0), (6, 0), (7, 0), (8, 0), (9, 0), (10, 0), (11, 1), (13, 1), (15, 1),
    (17, 1), (19, 2), (23, 2), (27, 2), (31, 2), (35, 3), (43, 3), (51, 3), (59, 3), (67, 4),
    (83, 4), (99, 4), (115, 4), (131, 5), (163, 5), (195, 5), (227, 5), (258, 0)]

/-- The least distances of copies, by symbol, and the number of bits that add to each. -/
def distances : List (Nat × Nat) :=
  [(1, 0), (2, 0), (3, 0), (4, 0), (5, 1), (7, 1), (9, 2), (13, 2), (17, 3), (25, 3), (33, 4),
    (49, 4), (65, 5), (97, 5), (129, 6), (193, 6), (257, 7), (385, 7), (513, 8), (769, 8),
    (1025, 9), (1537, 9), (2049, 10), (3073, 10), (4097, 11), (6145, 11), (8193, 12),
    (12289, 12), (16385, 13), (24577, 13)]

/-- Reads the bits that add to an entry of a table. -/
def fromTable (table : List (Nat × Nat)) (i : Nat) : Reader Nat :=
  match table[i]? with
  | some (least, width) => do return least + (← take width)
  | none => throw .corrupt

/-- Follows the symbols of a block to its end. Each symbol takes a bit at least, so the number of
bits bounds their number. -/
def symbols (literals distanceCodes : CodeTree) : Nat → Reader Unit
  | 0 => throw .exhausted
  | bound + 1 => do
    let s ← symbol literals
    if s < 256 then
      emit (UInt8.ofNat s)
      symbols literals distanceCodes bound
    else if s = 256 then
      pure ()
    else
      let length ← fromTable lengths (s - 257)
      let distance ← fromTable distances (← symbol distanceCodes)
      if (← get).output.size < distance then
        throw .corrupt
      copy distance length
      symbols literals distanceCodes bound

/-! ### Codes -/

/-- The lengths of the fixed code for literals. -/
def fixedLiterals : List Nat :=
  List.replicate 144 8 ++ List.replicate 112 9 ++ List.replicate 24 7 ++ List.replicate 8 8

/-- The lengths of the fixed code for distances. -/
def fixedDistances : List Nat :=
  List.replicate 32 5

/-- The order in which the lengths of the code for lengths are told. -/
def lengthOrder : List Nat :=
  [16, 17, 18, 0, 8, 7, 9, 6, 10, 5, 11, 4, 12, 3, 13, 2, 14, 1, 15]

/-- The code with rows of the given lengths. -/
def code (lengths : List Nat) : Reader CodeTree :=
  match CodeTree.ofLengths? lengths with
  | some tree => return tree
  | none => throw .corrupt

/-- Reads lengths until there are enough; `found` has them in reverse. -/
def codeLengths (tree : CodeTree) (count : Nat) : Nat → List Nat → Reader (List Nat)
  | 0, _ => throw .corrupt
  | bound + 1, found => do
    if count < found.length then
      throw .corrupt
    else if found.length = count then
      return found.reverse
    else
      let s ← symbol tree
      if s < 16 then
        codeLengths tree count bound (s :: found)
      else if s = 16 then
        match found with
        | [] => throw .corrupt
        | last :: _ =>
          codeLengths tree count bound (List.replicate (3 + (← take 2)) last ++ found)
      else if s = 17 then
        codeLengths tree count bound (List.replicate (3 + (← take 3)) 0 ++ found)
      else
        codeLengths tree count bound (List.replicate (11 + (← take 7)) 0 ++ found)

/-- Reads the two codes of a block that tells its own. -/
def ownCodes : Reader (CodeTree × CodeTree) := do
  let literalCount := 257 + (← take 5)
  let distanceCount := 1 + (← take 5)
  let told ← (List.range (4 + (← take 4))).mapM fun _ ↦ take 3
  let order := lengthOrder.zip told
  let tree ← code ((List.range 19).map fun s ↦ ((order.find? (·.1 = s)).map (·.2)).getD 0)
  let count := literalCount + distanceCount
  let all ← codeLengths tree count (count + 1) []
  return (← code (all.take literalCount), ← code (all.drop literalCount))

/-! ### Blocks -/

/-- Reads a block that is stored as it is. -/
def stored : Reader Unit := do
  align
  let length ← take 16
  let complement ← take 16
  if length + complement ≠ 65535 then
    throw .corrupt
  (List.range length).forM fun _ ↦ do emit (UInt8.ofNat (← take 8))

/-- Reads a block made of symbols. -/
def compressed (literals distanceCodes : CodeTree) : Reader Unit := do
  symbols literals distanceCodes (← get).bits.length

/-- Reads blocks up to the last one. Each block takes a bit at least. -/
def blocks : Nat → Reader Unit
  | 0 => throw .exhausted
  | bound + 1 => do
    let isLast ← take 1
    match ← take 2 with
    | 0 => stored
    | 1 => do compressed (← code fixedLiterals) (← code fixedDistances)
    | 2 => do
      let (literals, distanceCodes) ← ownCodes
      compressed literals distanceCodes
    | _ => throw .corrupt
    if isLast = 1 then pure () else blocks bound

/-- The bytes that compressed bytes stand for. -/
def decompress? (bytes : List UInt8) : Option (List UInt8) :=
  let bits := bitsOf bytes
  match EStateM.run (blocks bits.length) { bits } with
  | .ok _ s => some s.output.toList
  | .error .exhausted s => some s.output.toList
  | .error .corrupt _ => none

end BlockScript.Inflate

import TierVault.Zstandard.StateTable

/-!
Sequences: some literals, and then a copy of what was written before.

A sequence is three numbers. Each number is cut into a symbol and further bits, and the symbols of
each of the three kinds form a chain of states. The table of a chain is a standard one, a single
state, one that is written in front, or the table of the block before.
-/

namespace TierVault.Zstandard

structure Sequence where
  /-- How many literals come first. -/
  literals : Nat
  /-- How many bytes are copied. -/
  length : Nat
  /-- Up to three, one of the last distances; otherwise a distance and three more. -/
  offset : Nat

/-- How numbers of a kind are cut into symbols. -/
structure NumberCode where
  /-- For each symbol its least number, and how many bits tell the number from it. -/
  ranges : Array (Nat × Nat)
  /-- The shares of the standard table. -/
  standard : Distribution
  /-- A table may have two to this power of states. -/
  largestLog : Nat

namespace NumberCode

/-- Ranges of these widths, one after the other. -/
def rangesFrom (first : Nat) : (widths : List Nat) → List (Nat × Nat)
  | [] => []
  | width :: widths => (first, width) :: rangesFrom (first + 1 <<< width) widths

def standardShares (counts : List Nat) (rare : Nat) : List Share :=
  counts.map Share.states ++ List.replicate rare Share.rare

def forLiterals : NumberCode where
  ranges := (rangesFrom 0 (List.replicate 16 0 ++
    [1, 1, 1, 1, 2, 2, 3, 3, 4, 6, 7, 8, 9, 10, 11, 12, 13, 14, 15, 16])).toArray
  standard := ⟨6, standardShares ([4, 3] ++ List.replicate 11 2 ++ [1, 1, 1] ++
    List.replicate 9 2 ++ [3, 2, 1, 1, 1, 1, 1]) 4⟩
  largestLog := 9

def forOffsets : NumberCode where
  ranges := (rangesFrom 1 (List.range 32)).toArray
  standard := ⟨5, standardShares (List.replicate 6 1 ++ [2, 2, 2] ++ List.replicate 15 1) 5⟩
  largestLog := 8

def forLengths : NumberCode where
  ranges := (rangesFrom 3 (List.replicate 32 0 ++
    [1, 1, 1, 1, 2, 2, 3, 3, 4, 4, 5, 7, 8, 9, 10, 11, 12, 13, 14, 15, 16])).toArray
  standard := ⟨6, standardShares ([1, 4, 3] ++ List.replicate 6 2 ++ List.replicate 37 1) 7⟩
  largestLog := 9

def symbols (code : NumberCode) : Nat := code.ranges.size

def range (code : NumberCode) (symbol : Nat) : Nat × Nat := code.ranges.getD symbol (0, 0)

def symbolOf (code : NumberCode) (number : Nat) : Nat :=
  code.ranges.foldl (fun below (first, _) => if first ≤ number then below + 1 else below) 0 - 1

/-- The bits that tell a number from the others with its symbol. -/
def rest (code : NumberCode) (number : Nat) : Field :=
  let (first, width) := code.range (code.symbolOf number)
  ⟨number - first, width⟩

end NumberCode

/-- The tables of the three chains. -/
structure SequenceTables where
  literals : StateTable
  offsets : StateTable
  lengths : StateTable

namespace Sequence

/-! ## Reading -/

/-- The table of a chain by its kind, and how many bytes it takes. -/
def readTable? (code : NumberCode) (kind : Nat) (known : Option StateTable)
    (bytes : Array UInt8) : Option (StateTable × Nat) :=
  match kind with
  | 0 => some (code.standard.table, 0)
  | 1 => do
    let symbol := (← bytes[0]?).toNat
    if symbol < code.symbols then return (.constant symbol, 1) else none
  | 2 => do
    let (distribution, length) ← Distribution.read? bytes code.symbols code.largestLog
    return (distribution.table, length)
  | _ => known.map fun table => (table, 0)

def readTables? (kinds : Nat) (known : Option SequenceTables) (bytes : Array UInt8) :
    Option (SequenceTables × Nat) := do
  let rest (start : Nat) := bytes.extract start bytes.size
  let (literals, first) ← readTable? .forLiterals (kinds / 64) (known.map (·.literals)) bytes
  let (offsets, second) ←
    readTable? .forOffsets (kinds / 16 % 4) (known.map (·.offsets)) (rest first)
  let (lengths, third) ←
    readTable? .forLengths (kinds / 4 % 4) (known.map (·.lengths)) (rest (first + second))
  return (⟨literals, offsets, lengths⟩, first + second + third)

def readRest? (code : NumberCode) (table : StateTable) (state : Nat) (stack : BitStack) :
    Option (Nat × BitStack) :=
  let (first, width) := code.range (table.state state).symbol
  (stack.pop? width).map fun (bits, stack) => (first + bits, stack)

/-- Takes `count` sequences off a stack, which they have to use up. -/
def readChain? (tables : SequenceTables) :
    (count literals offset length : Nat) → BitStack → Array Sequence → Option (Array Sequence)
  | 0, _, _, _, stack, read => if stack.isEmpty then some read else none
  | count + 1, literalState, offsetState, lengthState, stack, read => do
    let (offset, stack) ← readRest? .forOffsets tables.offsets offsetState stack
    let (length, stack) ← readRest? .forLengths tables.lengths lengthState stack
    let (literals, stack) ← readRest? .forLiterals tables.literals literalState stack
    let read := read.push { literals, length, offset }
    if count = 0 then readChain? tables count literalState offsetState lengthState stack read
    else
      let (literalState, stack) ← tables.literals.next? literalState stack
      let (lengthState, stack) ← tables.lengths.next? lengthState stack
      let (offsetState, stack) ← tables.offsets.next? offsetState stack
      readChain? tables count literalState offsetState lengthState stack read

def readMany? (tables : SequenceTables) (count : Nat) (bytes : Array UInt8) :
    Option (Array Sequence) := do
  let stack ← BitStack.ofBytes? bytes
  let (literals, stack) ← tables.literals.enter? stack
  let (offset, stack) ← tables.offsets.enter? stack
  let (length, stack) ← tables.lengths.enter? stack
  readChain? tables count literals offset length stack #[]

/-- How many sequences there are, and the bytes that tell it. -/
def readCount? (bytes : Array UInt8) : Option (Nat × Nat) := do
  let first := (← bytes[0]?).toNat
  if first < 128 then return (first, 1)
  if first < 255 then
    let second ← bytes[1]?
    return (256 * (first - 128) + second.toNat, 2)
  if bytes.size < 3 then none
  return (0x7F00 + numberAt bytes 2 1, 3)

/-- Reads the sequences that fill these bytes, and the tables of their chains. Without sequences the
tables stay as they are. -/
def read? (known : Option SequenceTables) (bytes : Array UInt8) :
    Option (Array Sequence × Option SequenceTables) := do
  let (count, start) ← readCount? bytes
  if count = 0 then
    if start = bytes.size then return (#[], known) else none
  else
    let kinds := (← bytes[start]?).toNat
    if kinds % 4 ≠ 0 then none
    let (tables, length) ← readTables? kinds known (bytes.extract (start + 1) bytes.size)
    let sequences ← readMany? tables count (bytes.extract (start + 1 + length) bytes.size)
    return (sequences, some tables)

/-! ## Writing -/

/-- A table for symbols: its kind, its written form and the table itself. Few symbols, and symbols
that are evenly frequent, go by the standard table. The last symbol needs no share of its own unless
it is the only one of its kind. -/
def chooseTable (code : NumberCode) (symbols : List Nat) : Nat × Bytes × StateTable :=
  let standard := (0, [], code.standard.table)
  let total := symbols.length
  let tally (symbols : List Nat) : Array Nat :=
    symbols.foldl (fun counts symbol => counts.modify symbol (· + 1))
      (Array.replicate (symbols.foldl max 0 + 1) 0)
  let counts := tally symbols
  let most := counts.foldl max 0
  if total ≤ 2 then standard
  else if most = total then
    let symbol := counts.size - 1
    (1, [symbol.toUInt8], .constant symbol)
  else if total < 1 <<< code.standard.log ∨ most < total / 1 <<< (code.standard.log - 1) then standard
  else
    let log := Distribution.fittingLog code.largestLog 2 total (counts.size - 1)
    let last := symbols.getLastD 0
    let shared := if 1 < counts.getD last 0 then counts.modify last (· - 1) else counts
    let seldom := if 2048 < total then Share.rare else .states 1
    match Distribution.ofCounts? log shared.toList seldom with
    | some distribution => (2, distribution.write, distribution.table)
    | none => standard

def writeCount (count : Nat) : Bytes :=
  if count < 128 then [count.toUInt8]
  else if count < 0x7F00 then [(count / 256 + 128).toUInt8, count.toUInt8]
  else 255 :: Field.pack [⟨count - 0x7F00, 16⟩]

/-- The three chains of states while they are written, from their end. -/
structure Chains where
  literals : Nat
  offset : Nat
  length : Nat

/-- The bits of sequences that lead to the given states; the last sequence comes first. -/
def chainFields (literals offsets lengths : StateCoder) : List Sequence → Chains → List Field
  | [], next =>
      [⟨next.length, lengths.table.log⟩, ⟨next.offset, offsets.table.log⟩,
        ⟨next.literals, literals.table.log⟩]
  | sequence :: sequences, next =>
      let (offset, offsetField) := offsets.before (NumberCode.forOffsets.symbolOf sequence.offset)
        next.offset
      let (length, lengthField) := lengths.before (NumberCode.forLengths.symbolOf sequence.length)
        next.length
      let (literal, literalField) :=
        literals.before (NumberCode.forLiterals.symbolOf sequence.literals) next.literals
      offsetField :: lengthField :: literalField ::
        NumberCode.forLiterals.rest sequence.literals :: NumberCode.forLengths.rest sequence.length ::
        NumberCode.forOffsets.rest sequence.offset ::
        chainFields literals offsets lengths sequences ⟨literal, offset, length⟩

def write (sequences : List Sequence) : Bytes :=
  match sequences.reverse with
  | [] => writeCount 0
  | last :: others =>
    let (literalKind, literalBytes, literals) :=
      chooseTable .forLiterals (sequences.map (NumberCode.forLiterals.symbolOf ·.literals))
    let (offsetKind, offsetBytes, offsets) :=
      chooseTable .forOffsets (sequences.map (NumberCode.forOffsets.symbolOf ·.offset))
    let (lengthKind, lengthBytes, lengths) :=
      chooseTable .forLengths (sequences.map (NumberCode.forLengths.symbolOf ·.length))
    let literals := StateCoder.ofTable literals
    let offsets := StateCoder.ofTable offsets
    let lengths := StateCoder.ofTable lengths
    let ends : Chains :=
      { literals := literals.last (NumberCode.forLiterals.symbolOf last.literals)
        offset := offsets.last (NumberCode.forOffsets.symbolOf last.offset)
        length := lengths.last (NumberCode.forLengths.symbolOf last.length) }
    let fields := NumberCode.forLiterals.rest last.literals ::
      NumberCode.forLengths.rest last.length :: NumberCode.forOffsets.rest last.offset ::
      chainFields literals offsets lengths others ends
    writeCount sequences.length ++
      [(64 * literalKind + 16 * offsetKind + 4 * lengthKind).toUInt8] ++
      literalBytes ++ offsetBytes ++ lengthBytes ++ BitStack.write fields

end Sequence

end TierVault.Zstandard

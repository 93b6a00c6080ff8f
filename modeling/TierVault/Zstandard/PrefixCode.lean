import TierVault.Zstandard.StateTable

/-!
Prefix codes for bytes.

A code is given by the weight of each byte: of two bytes whose weights differ by one, the code of the
heavier is one bit shorter. The codes of all bytes fill the code space, so the last weight follows
from the others and is not written. Code lengths for given counts are as good as any of at most so
many bits.
-/

namespace TierVault.Zstandard

/-- The weights of the bytes from zero on; a byte of weight zero has no code. -/
structure PrefixCode where
  weights : List Nat

namespace PrefixCode

/-- How much of the code space a weight takes. -/
def room (weight : Nat) : Nat := (1 <<< weight) / 2

def totalRoom (weights : List Nat) : Nat := weights.foldl (fun total weight => total + room weight) 0

/-- The length of the longest code. -/
def log (code : PrefixCode) : Nat := (totalRoom code.weights).log2

/-- The bytes with their weights, those with longer codes first. -/
def ordered (code : PrefixCode) : List (Nat × Nat) :=
  let numbered := code.weights.zipIdx
  (List.range code.log).flatMap fun weight => numbered.filter (·.1 == weight + 1)

/-- The byte and its length for each number of as many bits as the longest code has. -/
def cells (code : PrefixCode) : Array (UInt8 × Nat) :=
  (code.ordered.flatMap fun (weight, byte) =>
    List.replicate (room weight) (byte.toUInt8, code.log + 1 - weight)).toArray

def fields (code : PrefixCode) : Array Field :=
  let start : Nat × Array Field := (0, Array.replicate 256 ⟨0, 0⟩)
  (code.ordered.foldl (fun (place, fields) (weight, byte) =>
    (place + room weight,
      fields.setIfInBounds byte ⟨place / room weight, code.log + 1 - weight⟩)) start).2

/-! ## Coded bytes -/

/-- Takes `count` bytes off a stack, which they have to use up. -/
def readBytes (cells : Array (UInt8 × Nat)) (log : Nat) :
    (count : Nat) → BitStack → Array UInt8 → Option (Array UInt8)
  | 0, stack, read => if stack.isEmpty then some read else none
  | count + 1, stack, read =>
    let (byte, width) := cells.getD (stack.top log) (0, 0)
    match stack.drop? width with
    | none => none
    | some stack => readBytes cells log count stack (read.push byte)

def readStream? (code : PrefixCode) (count : Nat) (bytes : Array UInt8) : Option (Array UInt8) := do
  readBytes code.cells code.log count (← BitStack.ofBytes? bytes) #[]

/-- Four streams, each with a quarter of the content; the lengths of the first three stand in
front. -/
def readStreams? (code : PrefixCode) (count : Nat) (bytes : Array UInt8) :
    Option (Array UInt8) := do
  let quarter := (count + 3) / 4
  let first := 6 + numberAt bytes 2 0
  let second := first + numberAt bytes 2 2
  let third := second + numberAt bytes 2 4
  if count < 6 ∨ bytes.size < 10 ∨ bytes.size < third ∨ count < 3 * quarter then none
  let cells := code.cells
  let read (count start stop : Nat) (before : Array UInt8) := do
    readBytes cells code.log count (← BitStack.ofBytes? (bytes.extract start stop)) before
  let content ← read quarter 6 first #[]
  let content ← read quarter first second content
  let content ← read quarter second third content
  read (count - 3 * quarter) third bytes.size content

def writeStream (fields : Array Field) (content : List UInt8) : Bytes :=
  BitStack.write (content.reverse.map fun byte => fields.getD byte.toNat ⟨0, 0⟩)

/-- Nothing if a stream is too long for its length to be written. -/
def writeStreams? (fields : Array Field) (content : List UInt8) : Option Bytes :=
  let quarter := (content.length + 3) / 4
  let first := writeStream fields (content.take quarter)
  let second := writeStream fields ((content.drop quarter).take quarter)
  let third := writeStream fields ((content.drop (2 * quarter)).take quarter)
  let fourth := writeStream fields (content.drop (3 * quarter))
  let lengths := [first.length, second.length, third.length]
  if lengths.any (65535 < ·) then none
  else
    some (Field.pack (lengths.map fun length => ⟨length, 16⟩) ++ first ++ second ++ third ++ fourth)

/-! ## The written form of a code -/

def longest : Nat := 12

/-- The code of the weights and of one more, which fills the code space. There is none unless the room
that is left is a power of two, and the longest codes come in pairs. -/
def complete? (weights : List Nat) : Option PrefixCode :=
  let total := totalRoom weights
  let log := total.log2 + 1
  let left := 1 <<< log - total
  let weights := weights ++ [left.log2 + 1]
  let lightest := weights.count 1
  if total = 0 ∨ longest < log ∨ left ≠ 1 <<< left.log2 ∨ weights.any (longest < ·) ∨
      lightest < 2 ∨ lightest % 2 = 1 then none
  else some ⟨weights⟩

/-- Two weights in each byte. -/
def readPairs (bytes : List UInt8) : List Nat :=
  bytes.flatMap fun byte => [byte.toNat / 16, byte.toNat % 16]

/-- Two chains of states take turns, until the bits for the next state are missing. -/
def readTurns (table : StateTable) :
    (bound state other : Nat) → BitStack → Array Nat → Option (List Nat)
  | 0, _, _, _, _ => none
  | bound + 1, state, other, stack, weights =>
    let weights := weights.push (table.state state).symbol
    match table.next? state stack with
    | none => some (weights.push (table.state other).symbol).toList
    | some (next, stack) => readTurns table bound other next stack weights

/-- At most this many weights are written. -/
def mostWeights : Nat := 255

def readChained? (bytes : Array UInt8) : Option (List Nat) := do
  let (distribution, length) ← Distribution.read? bytes 256 6
  let table := distribution.table
  let stack ← BitStack.ofBytes? (bytes.extract length bytes.size)
  let (state, stack) ← table.enter? stack
  let (other, stack) ← table.enter? stack
  readTurns table (mostWeights - 1) state other stack #[]

/-- Reads a code, and tells how many bytes it takes. -/
def read? (bytes : Array UInt8) : Option (PrefixCode × Nat) := do
  let head := (← bytes[0]?).toNat
  let count := head - 127
  let length := if head < 128 then head else (count + 1) / 2
  if bytes.size < 1 + length then none
  let body := bytes.extract 1 (1 + length)
  let weights ← if head < 128 then readChained? body else some ((readPairs body.toList).take count)
  return (← complete? weights, 1 + length)

def writePairs : List Nat → Bytes
  | [] => []
  | [weight] => [(16 * weight).toUInt8]
  | first :: second :: weights => (16 * first + second).toUInt8 :: writePairs weights

/-- The bits of two chains that take turns, the last weight first. -/
def turnFields (coder : StateCoder) : (weights : List Nat) → (state other : Option Nat) → List Field
  | [], state, other =>
      [⟨state.getD 0, coder.table.log⟩, ⟨other.getD 0, coder.table.log⟩]
  | weight :: weights, none, other => turnFields coder weights other (some (coder.last weight))
  | weight :: weights, some state, other =>
      let (before, field) := coder.before weight state
      field :: turnFields coder weights other (some before)

/-- Nothing if chains of states are no use for these weights. -/
def writeChained? (weights : List Nat) : Option Bytes := do
  let last := weights.foldl max 0
  let counts := (List.range (last + 1)).map fun weight => weights.count weight
  let most := counts.foldl max 0
  if weights.length ≤ 2 ∨ most = 1 ∨ most = weights.length then none
  let log := Distribution.fittingLog 6 2 weights.length last
  let distribution ← Distribution.ofCounts? log counts (.states 1)
  let coder := StateCoder.ofTable distribution.table
  return distribution.write ++ BitStack.write (turnFields coder weights.reverse none none)

/-- Weights are written in pairs unless chains of states take less room. Pairs are for the bytes up to
128 only. -/
def write? (code : PrefixCode) : Option Bytes :=
  let weights := code.weights.dropLast
  let pairs :=
    if 128 < weights.length then none
    else some ((127 + weights.length).toUInt8 :: writePairs weights)
  match writeChained? weights with
  | none => pairs
  | some chained =>
    if 1 < chained.length ∧ chained.length < weights.length / 2 then
      some (chained.length.toUInt8 :: chained)
    else pairs

/-! ## Codes from counts -/

/-- Bytes that are to get one bit more, and how often all of them occur. -/
structure Bundle where
  count : Nat
  bytes : List Nat

def pairUp : List Bundle → List Bundle
  | first :: second :: rest =>
      ⟨first.count + second.count, first.bytes ++ second.bytes⟩ :: pairUp rest
  | _ => []

/-- The cheapest bundles of at most `limit` levels, in order. -/
def bundles (single : List Bundle) : (limit : Nat) → List Bundle
  | 0 => []
  | limit + 1 =>
      List.merge single (pairUp (bundles single limit)) fun left right => left.count ≤ right.count

/-- Lengths of at most `limit` bits for the bytes that occur: as long as all codes together can be
short. Two bundles less than twice the bytes fill the code space. -/
def lengths (limit : Nat) (counts : List Nat) : Array Nat :=
  let occurring := counts.zipIdx.filterMap fun (count, byte) =>
    if count = 0 then none else some ⟨count, [byte]⟩
  let single := occurring.mergeSort fun left right => left.count ≤ right.count
  let taken := (bundles single limit).take (2 * single.length - 2)
  taken.foldl (fun lengths bundle =>
    bundle.bytes.foldl (fun lengths byte => lengths.modify byte (· + 1)) lengths)
    (Array.replicate counts.length 0)

def ofCounts (limit : Nat) (counts : List Nat) : PrefixCode :=
  let lengths := (lengths limit counts).toList
  let log := lengths.foldl max 0
  ⟨lengths.map fun length => if length = 0 then 0 else log + 1 - length⟩

end PrefixCode

end TierVault.Zstandard

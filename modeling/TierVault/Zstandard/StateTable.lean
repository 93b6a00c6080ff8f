import TierVault.Text.Utf8

/-!
Tables of states, each of which stands for a symbol.

A state tells the symbol, and how many bits lead to the next state from which base. How often a symbol
occurs decides how many states it has: frequent symbols need few bits. The states of a symbol share
out all next states among them, so every sequence of symbols has a chain of states, which is found
from its end.
-/

namespace TierVault.Zstandard

/-! # Bits

Numbers of a few bits, packed into bytes.

The first number takes the lowest bits of the first byte. A stack of bits is read from its end: what
was packed last comes off first, and a single bit marks where the stack ends within its last byte.
-/

/-- A number that is less than the power of two with exponent `width`. -/
structure Field where
  value : Nat
  width : Nat

/-- Whole bytes, and fewer than eight bits that do not fill a byte yet. -/
structure Packing where
  bytes : Array UInt8
  pending : Nat
  width : Nat

namespace Packing

/-- Moves `count` bytes out of the pending bits. -/
def flush : (count : Nat) → Packing → Packing
  | 0, packing => packing
  | count + 1, packing =>
    flush count
      { bytes := packing.bytes.push packing.pending.toUInt8
        pending := packing.pending / 256
        width := packing.width - 8 }

def add (packing : Packing) (field : Field) : Packing :=
  let width := packing.width + field.width
  let pending := packing.pending + field.value <<< packing.width
  flush (width / 8) { packing with pending, width }

/-- The last byte is filled up with zeros. -/
def finish (packing : Packing) : Bytes :=
  if packing.width = 0 then packing.bytes.toList
  else (packing.bytes.push packing.pending.toUInt8).toList

end Packing

def Field.pack (fields : List Field) : Bytes :=
  (fields.foldl Packing.add ⟨#[], 0, 0⟩).finish

/-- The number in `count` bytes from a place on; beyond the end there are zeros. -/
def numberAt (bytes : Array UInt8) : (count place : Nat) → Nat
  | 0, _ => 0
  | count + 1, place => (bytes.getD place 0).toNat + 256 * numberAt bytes count (place + 1)

/-- The number in `width` bits from a bit on. -/
def bitsAt (bytes : Array UInt8) (start width : Nat) : Nat :=
  (numberAt bytes ((start % 8 + width + 7) / 8) (start / 8) >>> (start % 8)) % (1 <<< width)

/-- The lowest `left` bits of some bytes. -/
structure BitStack where
  bytes : Array UInt8
  left : Nat

namespace BitStack

/-- The highest bit that is set marks the end. -/
def ofBytes? (bytes : Array UInt8) : Option BitStack :=
  match bytes.back? with
  | none => none
  | some last => if last = 0 then none else some ⟨bytes, 8 * (bytes.size - 1) + last.toNat.log2⟩

/-- The highest `width` bits; zeros stand in for bits that are missing. -/
def top (stack : BitStack) (width : Nat) : Nat :=
  if width ≤ stack.left then bitsAt stack.bytes (stack.left - width) width
  else bitsAt stack.bytes 0 stack.left <<< (width - stack.left)

def drop? (stack : BitStack) (width : Nat) : Option BitStack :=
  if width ≤ stack.left then some { stack with left := stack.left - width } else none

def pop? (stack : BitStack) (width : Nat) : Option (Nat × BitStack) :=
  (stack.drop? width).map fun rest => (stack.top width, rest)

def isEmpty (stack : BitStack) : Bool := stack.left == 0

/-- The bytes of a stack on which the last of the fields lies highest. -/
def write (fields : List Field) : Bytes := Field.pack (fields ++ [⟨1, 1⟩])

end BitStack

/-! # Tables of states -/

/-- How many states a symbol has. A rare symbol has one that does not depend on the state before. -/
inductive Share
  | rare
  | states (count : Nat)
  deriving DecidableEq

def Share.weight : Share → Nat
  | .rare => 1
  | .states count => count

/-- The shares of the symbols from zero on. Together they have as many states as two to the power
`log`. -/
structure Distribution where
  log : Nat
  shares : List Share

structure State where
  symbol : Nat
  /-- How many bits lead to the next state. -/
  width : Nat
  /-- The next state if all these bits are zero. -/
  base : Nat

structure StateTable where
  log : Nat
  states : Array State

namespace StateTable

/-- A single state that never changes. -/
def constant (symbol : Nat) : StateTable := ⟨0, #[⟨symbol, 0, 0⟩]⟩

def state (table : StateTable) (index : Nat) : State := table.states.getD index ⟨0, 0, 0⟩

/-- Reads the first state. -/
def enter? (table : StateTable) (stack : BitStack) : Option (Nat × BitStack) :=
  stack.pop? table.log

/-- Reads the state that follows a state. -/
def next? (table : StateTable) (index : Nat) (stack : BitStack) : Option (Nat × BitStack) :=
  let state := table.state index
  (stack.pop? state.width).map fun (bits, rest) => (state.base + bits, rest)

end StateTable

namespace Distribution

def size (distribution : Distribution) : Nat := 1 <<< distribution.log

/-- The symbol of each state: rare symbols from the end on, and the others in strides, so that the
states of each are spread evenly. -/
def symbols (distribution : Distribution) : Array Nat :=
  let size := distribution.size
  let numbered := distribution.shares.zipIdx
  let rare := (numbered.filter (·.1 == .rare)).map (·.2)
  let common := numbered.flatMap fun (share, symbol) =>
    match share with
    | .rare => []
    | .states count => List.replicate count symbol
  let strides := (List.range size).map fun index => index * (size / 2 + size / 8 + 3) % size
  let places := strides.filter (· < size - rare.length)
  let ends := (List.range rare.length).map fun index => size - 1 - index
  ((places ++ ends).zip (common ++ rare)).foldl
    (fun symbols (place, symbol) => symbols.setIfInBounds place symbol) (Array.replicate size 0)

/-- The states of a symbol are numbered from its share on, and each number needs the bits that it
lacks to the size of the table. -/
def table (distribution : Distribution) : StateTable :=
  let start : Array Nat × Array State :=
    ((distribution.shares.map Share.weight).toArray, Array.mkEmpty distribution.size)
  let (_, states) := distribution.symbols.foldl (fun (numbers, states) symbol =>
    let number := numbers.getD symbol 1
    let width := distribution.log - number.log2
    (numbers.setIfInBounds symbol (number + 1),
      states.push ⟨symbol, width, (number <<< width) - distribution.size⟩)) start
  ⟨distribution.log, states⟩

/-! ## The written form -/

def smallestLog : Nat := 5

/-- The largest power of two that is at most one more than the states that are left. -/
def threshold (left : Nat) : Nat := 1 <<< (left + 1).log2

/-- Numbers below this take a bit less than others. -/
def shortBelow (left : Nat) : Nat := 2 * threshold left - 2 - left

/-- The number of a share when `left` states are not given away yet, and the bit after it. -/
def readNumber (bytes : Array UInt8) (place left : Nat) : Nat × Nat :=
  let width := (left + 1).log2
  let low := bitsAt bytes place width
  if low < shortBelow left then (low, place + width)
  else
    let number := bitsAt bytes place (width + 1)
    (if number < threshold left then number else number - shortBelow left, place + width + 1)

def shareOf : (number : Nat) → Share
  | 0 => .rare
  | count + 1 => .states count

/-- How many symbols follow without a share: three for each pair of set bits, and as many as the next
pair tells. -/
def readGap (bytes : Array UInt8) : (bound place gap : Nat) → Nat × Nat
  | 0, place, gap => (gap, place)
  | bound + 1, place, gap =>
    let pair := bitsAt bytes place 2
    if pair = 3 then readGap bytes bound (place + 2) (gap + 3) else (gap + pair, place + 2)

/-- The shares of at most `symbols` symbols, and the bit after them. -/
def readShares (bytes : Array UInt8) (symbols : Nat) :
    (bound place left : Nat) → (shares : Array Share) → Option (List Share × Nat)
  | 0, _, _, _ => none
  | bound + 1, place, left, shares =>
    if left = 0 then some (shares.toList, place)
    else if symbols ≤ shares.size then none
    else
      let (number, place) := readNumber bytes place left
      let share := shareOf number
      let shares := shares.push share
      let left := left - share.weight
      if share = .states 0 then
        let (gap, place) := readGap bytes symbols place 0
        readShares bytes symbols bound place left (shares ++ List.replicate gap (Share.states 0))
      else readShares bytes symbols bound place left shares

/-- Reads a distribution over at most `symbols` symbols, and tells how many bytes it takes. -/
def read? (bytes : Array UInt8) (symbols largestLog : Nat) : Option (Distribution × Nat) := do
  let log := smallestLog + bitsAt bytes 0 4
  if largestLog < log then none
  let (shares, place) ← readShares bytes symbols (symbols + 1) 4 (1 <<< log) #[]
  let length := (place + 7) / 8
  if bytes.size < length then none
  return (⟨log, shares⟩, length)

def numberOf : Share → Nat
  | .rare => 0
  | .states count => count + 1

def numberField (left number : Nat) : Field :=
  let number := if number < threshold left then number else number + shortBelow left
  ⟨number, if number < shortBelow left then (left + 1).log2 else (left + 1).log2 + 1⟩

def gapFields (gap : Nat) : List Field :=
  List.replicate (gap / 3) ⟨3, 2⟩ ++ [⟨gap % 3, 2⟩]

/-- `gap` counts the symbols without a share since the last one that was written, if that one was
without a share itself. -/
def shareFields : List Share → (left : Nat) → (gap : Option Nat) → List Field
  | [], _, _ => []
  | .states 0 :: shares, left, some gap => shareFields shares left (some (gap + 1))
  | share :: shares, left, gap =>
    let after := if share = .states 0 then some 0 else none
    let rest := numberField left (numberOf share) ::
      shareFields shares (left - share.weight) after
    match gap with
    | none => rest
    | some gap => gapFields gap ++ rest

def write (distribution : Distribution) : Bytes :=
  Field.pack (⟨distribution.log - smallestLog, 4⟩ ::
    shareFields distribution.shares distribution.size none)

/-! ## Shares from counts -/

/-- A table for `total` symbols up to the symbol `last` is not finer than these can make use of:
`spare` is by how many bits the number of symbols has to exceed it. -/
def fittingLog (largestLog spare total last : Nat) : Nat :=
  let least := min (total.log2 + 1) (last.log2 + 2)
  min 12 (max smallestLog (max least (min largestLog ((total - 1).log2 - spare))))

/-- A share that is rounded down counts up if what it loses exceeds this part of 2²⁰. -/
def roundUpAbove : List Nat := [0, 473195, 504333, 520860, 550000, 700000, 750000, 830000]

/-- The share of a symbol by its part of the total, where a state is worth 2^(62 - log). -/
def proportion (log step count : Nat) : Nat :=
  let scale := 62 - log
  let whole := (count * step) >>> scale
  let lost := count * step - whole <<< scale
  match roundUpAbove[whole]? with
  | some bound => if bound <<< (scale - 20) < lost then whole + 1 else whole
  | none => whole

def indexOfLargest (shares : List Nat) : Nat :=
  let largest := shares.foldl max 0
  shares.findIdx (· == largest)

/-- Shares in proportion to the counts. What rounding leaves over, the most frequent symbol takes;
there are no such shares if that symbol would lose half of its own. -/
def ofCounts? (log : Nat) (counts : List Nat) (seldom : Share) : Option Distribution :=
  let total := counts.foldl (· + ·) 0
  let least := total >>> log
  let step := (1 <<< 62) / total
  let weights := counts.map fun count =>
    if count = 0 then 0 else if count ≤ least then 1 else proportion log step count
  let given := weights.foldl (· + ·) 0
  let candidates := (counts.zip weights).map fun (count, weight) =>
    if count ≤ least then 0 else weight
  let largest := indexOfLargest candidates
  let most := candidates.getD largest 0
  if 1 <<< log + most / 2 ≤ given then none
  else
    let shares := ((counts.zip weights).zipIdx).map fun ((count, weight), symbol) =>
      if count = 0 then .states 0
      else if count ≤ least then seldom
      else if symbol = largest then .states (weight + 1 <<< log - given)
      else .states weight
    some ⟨log, shares⟩

end Distribution

/-! ## Chains of states -/

/-- A table together with the states of each symbol, in order. -/
structure StateCoder where
  table : StateTable
  statesOf : Array (Array Nat)

namespace StateCoder

def ofTable (table : StateTable) : StateCoder where
  table := table
  statesOf :=
    let symbols := table.states.foldl (fun bound state => max bound (state.symbol + 1)) 0
    (List.range table.states.size).foldl (fun statesOf index =>
      statesOf.modify (table.state index).symbol (·.push index)) (Array.replicate symbols #[])

def states (coder : StateCoder) (symbol : Nat) : Array Nat := coder.statesOf.getD symbol #[]

/-- The state of a symbol after which no state has to follow. -/
def last (coder : StateCoder) (symbol : Nat) : Nat := (coder.states symbol).getD 0 0

/-- The state of a symbol that can be followed by a state, and the bits that lead there. The states of
a symbol share out the next states in order, in parts that differ by one bit at most; so the number of
the state is the next one without its lowest bits. -/
def before (coder : StateCoder) (symbol next : Nat) : Nat × Field :=
  let states := coder.states symbol
  let target := next + 1 <<< coder.table.log
  let width := (target / states.size).log2
  let index := states.getD (target >>> width - states.size) 0
  (index, ⟨next - (coder.table.state index).base, width⟩)

end StateCoder

end TierVault.Zstandard

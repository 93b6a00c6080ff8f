import TierVault.Compression.Frame
import TierVault.Digest
import TierVault.Zstandard.Literals
import TierVault.Zstandard.Sequences

/-!
Frames of blocks.

A frame is a magic number, a header, and blocks up to one that is marked as the last. The header may
tell the size of the content, and whether a digest of the content follows the last block. Skippable
frames hold no content. Frames stand one after the other, and the content of all of them is put
together. Main statement: a frame of raw blocks is read as their content.
-/

namespace TierVault.Zstandard

/-! # Blocks

Blocks of literals and sequences.

What a block means depends on what was written before it: copies reach back into it, and the last
three distances, the last prefix code and the last tables may be used again.
-/

/-- The last three distances, the latest first. -/
structure Distances where
  first : Nat
  second : Nat
  third : Nat

namespace Distances

def start : Distances := ⟨1, 4, 8⟩

/-- The distances with a distance in front, of which the number is shifted by one when no literals
come before the copy. There may be none that a number stands for. -/
def use? (distances : Distances) (sequence : Sequence) : Option Distances :=
  if 3 < sequence.offset then
    some ⟨sequence.offset - 3, distances.first, distances.second⟩
  else
    match if sequence.literals = 0 then sequence.offset + 1 else sequence.offset with
    | 1 => some distances
    | 2 => some ⟨distances.second, distances.first, distances.third⟩
    | 3 => some ⟨distances.third, distances.first, distances.second⟩
    | _ =>
      if distances.first ≤ 1 then none
      else some ⟨distances.first - 1, distances.first, distances.second⟩

end Distances

/-- What blocks have written so far, and what they leave to the next. -/
structure History where
  written : Array UInt8
  distances : Distances
  code : Option PrefixCode
  tables : Option SequenceTables

namespace History

def start : History := ⟨#[], .start, none, none⟩

/-- Repeats what stands `distance` bytes back, byte by byte. -/
def repeatBack (distance : Nat) : (length : Nat) → Array UInt8 → Array UInt8
  | 0, written => written
  | length + 1, written =>
    repeatBack distance length (written.push (written.getD (written.size - distance) 0))

/-- What was written, the place of the next literal, and the last distances. -/
structure Output where
  written : Array UInt8
  place : Nat
  distances : Distances

/-- Writes what a sequence stands for, unless it makes more than `limit` bytes in all, there are not as
many literals, or its copy reaches behind the beginning. -/
def extend? (limit : Nat) (literals : Array UInt8) (output : Output) (sequence : Sequence) :
    Option Output := do
  let ⟨written, place, distances⟩ := output
  let stop := place + sequence.literals
  let distances ← distances.use? sequence
  let size := written.size + sequence.literals
  if literals.size < stop ∨ size < distances.first ∨ limit < size + sequence.length then none
  let written := written ++ literals.extract place stop
  return ⟨repeatBack distances.first sequence.length written, stop, distances⟩

/-- Writes what a block stands for, which is at most `limit` bytes. -/
def readBlock? (limit : Nat) (history : History) (block : Array UInt8) : Option History := do
  let ⟨written, distances, code, tables⟩ := history
  if block.size < 2 then none
  let bound := written.size + limit
  let literals ← Literals.read? limit code block
  let (sequences, tables) ← Sequence.read? tables (block.extract literals.length block.size)
  let ⟨written, place, distances⟩ ←
    sequences.foldlM (extend? bound literals.content) ⟨written, 0, distances⟩
  let left := literals.content.extract place literals.content.size
  if bound < written.size + left.size then none
  return ⟨written ++ left, distances, literals.code, tables⟩

end History

/-! ## Writing -/

/-- The literals of sequences in content from a place on, and those that follow the last sequence up
to the end. -/
def literalsOf (content : Array UInt8) (stop : Nat) : (place : Nat) → List Sequence → List UInt8
  | place, [] => (content.extract place stop).toList
  | place, sequence :: sequences =>
    (content.extract place (place + sequence.literals)).toList ++
      literalsOf content stop (place + sequence.literals + sequence.length) sequences

/-- The block of sequences for the content between two places; none if it saves too little.
`mayCode` tells whether a code for the literals is tried. -/
def writeBlock? (mayCode : Bool) (content : Array UInt8) (start stop : Nat)
    (sequences : List Sequence) : Option Bytes :=
  let literals := literalsOf content stop start sequences
  let block := Literals.write mayCode literals ++ Sequence.write sequences
  if stop - start < 7 ∨ stop - start ≤ block.length + Literals.leastGain (stop - start) then none
  else some block

/-! # Frames -/

/-- Takes bytes from the front of the input. -/
def takeBytes (count : Nat) (input : Bytes) : Except FrameDefect (Bytes × Bytes) :=
  let taken := input.take count
  if taken.length < count then .error .incomplete else .ok (taken, input.drop count)

def takeNumber (width : Nat) (input : Bytes) : Except FrameDefect (Nat × Bytes) := do
  let (bytes, input) ← takeBytes width input
  return (LittleEndian.number bytes, input)

structure Header where
  /-- How far copies may reach back. -/
  window : Nat
  /-- The size of the content, if the frame tells it. -/
  size : Option Nat
  hasDigest : Bool

namespace Header

def largestWindow : Nat := 134217729

def largestBlock : Nat := 131072

/-- No block stands for more bytes than this. -/
def blockLimit (header : Header) : Nat := min header.window largestBlock

/-- A window in a byte: a power of two, and how many eighths of it are added. -/
def windowOf (byte : Nat) : Nat :=
  let base := 1024 <<< (byte / 8)
  base + base / 8 * (byte % 8)

/-- How many bytes tell the size of the content. -/
def sizeWidth (flags : Nat) : Nat :=
  match flags / 64 with
  | 0 => if flags / 32 % 2 = 1 then 1 else 0
  | 1 => 2
  | 2 => 4
  | _ => 8

/-- Reads what follows the flags. Content of a known size may do without a window; then it is its own
window. Dictionaries are not known here. -/
def read (flags : Nat) (input : Bytes) : Except FrameDefect (Header × Bytes) := do
  let isWhole : Bool := flags / 32 % 2 = 1
  let (window, input) ← takeNumber (if isWhole then 0 else 1) input
  let (dictionary, input) ← takeNumber ([0, 1, 2, 4].getD (flags % 4) 0) input
  let (size, input) ← takeNumber (sizeWidth flags) input
  if flags / 8 % 2 = 1 ∨ dictionary ≠ 0 then throw .corrupt
  let size := if flags / 64 = 1 then size + 256 else size
  return ({ window := if isWhole then size else windowOf window
            size := if sizeWidth flags = 0 then none else some size
            hasDigest := flags / 4 % 2 = 1 }, input)

/-- Whether content has the size that the header tells. -/
def fits (header : Header) (content : Array UInt8) : Bool :=
  header.size.all (· == content.size)

/-- Whether so many bytes are more than the header tells. -/
def isExceeded (header : Header) (count : Nat) : Bool := header.size.any (· < count)

end Header

/-! ## Blocks -/

inductive BlockKind
  | raw
  | repeated
  | coded
  deriving DecidableEq

structure BlockHead where
  isLast : Bool
  kind : BlockKind
  /-- How many bytes follow, or how often the byte that follows is repeated. -/
  size : Nat

namespace BlockHead

def ofNumber? (number : Nat) : Option BlockHead :=
  let head (kind : BlockKind) : Option BlockHead := some ⟨number % 2 = 1, kind, number / 8⟩
  match number / 2 % 4 with
  | 0 => head .raw
  | 1 => head .repeated
  | 2 => head .coded
  | _ => none

/-- How many bytes follow. -/
def length (head : BlockHead) : Nat := if head.kind = .repeated then 1 else head.size

def read (input : Bytes) : Except FrameDefect (BlockHead × Bytes) := do
  let (number, input) ← takeNumber 3 input
  match ofNumber? number with
  | some head => return (head, input)
  | none => throw .corrupt

end BlockHead

/-- Short content of a known size is unpacked at once if its frame is complete, and otherwise block by
block as the input comes. -/
inductive Pace
  | atOnce
  | byBlock
  deriving DecidableEq

/-- What a block adds to the history, unless it is no such block. Block by block, an empty block stands
for nothing, whatever its kind. -/
def readBody (pace : Pace) (limit : Nat) (head : BlockHead) (body : Bytes) (history : History) :
    Option History :=
  if limit < head.size then none
  else match head.kind with
  | .raw => some { history with written := history.written ++ body }
  | .repeated =>
      some { history with
        written := history.written ++ List.replicate head.size (body.headD 0) }
  | .coded =>
    if head.size = 0 ∧ pace = .byBlock then some history
    else history.readBlock? limit body.toArray

/-- Reads what follows the last block. -/
def readDigest (content : Bytes) (input : Bytes) : Except FrameDefect (Bytes × Bytes) := do
  let (digest, input) ← takeNumber 4 input
  if digest = (XxHash64.digest content).toNat % 4294967296 then return (content, input)
  throw .corrupt

/-- Reads blocks up to the last; each takes at least three bytes, so the length of the input bounds
their number. Raw bytes count as content as they come. Block by block, content may be shorter than the
header tells if the last block is empty. -/
def readBlocks (pace : Pace) (header : Header) :
    (bound : Nat) → History → Bytes → Except FrameDefect (Bytes × Bytes)
  | 0, _, _ => .error .incomplete
  | bound + 1, history, input => do
    let (head, input) ← BlockHead.read input
    let limit := header.blockLimit
    if limit < head.length ∧ pace = .byBlock then throw .corrupt
    let body := input.take head.length
    if body.length < head.length then
      let isRaw := head.kind = .raw
      throw (if isRaw ∧ header.isExceeded (history.written.size + body.length) then .corrupt
        else .incomplete)
    let input := input.drop head.length
    match readBody pace limit head body history with
    | none => throw .corrupt
    | some history =>
      if header.isExceeded history.written.size then throw .corrupt
      else if !head.isLast then readBlocks pace header bound history input
      else if !header.fits history.written && (pace == .atOnce || 0 < head.length) then
        throw .corrupt
      else if header.hasDigest then readDigest history.written.toList input
      else return (history.written.toList, input)

/-- Whether all blocks, and the digest if there is one, are there. -/
def isComplete (hasDigest : Bool) : (bound : Nat) → Bytes → Bool
  | 0, _ => false
  | bound + 1, input =>
    match BlockHead.read input with
    | .error _ => false
    | .ok (head, input) =>
      match takeBytes head.length input with
      | .error _ => false
      | .ok (_, input) =>
        if !head.isLast then isComplete hasDigest bound input
        else !hasDigest || (input.take 4).length == 4

/-- Content of at most this size is short. -/
def shortSize : Nat := 32

/-- Reads a frame that follows its magic number. Only content that is unpacked at once may have a
window that is too large. -/
def readContent (input : Bytes) : Except FrameDefect (Bytes × Bytes) := do
  let (flags, input) ← takeNumber 1 input
  let (header, input) ← Header.read flags input
  let isShort := header.size.any (· ≤ shortSize)
  if isShort && isComplete header.hasDigest input.length input then
    readBlocks .atOnce header input.length .start input
  else if Header.largestWindow < header.window then throw .corrupt
  else readBlocks .byBlock header input.length .start input

end TierVault.Zstandard

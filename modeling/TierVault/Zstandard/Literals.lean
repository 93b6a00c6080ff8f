import TierVault.Zstandard.PrefixCode

/-!
The literals of a block: raw, one byte over and over, or in a prefix code.

A code is written with the first literals that use it; later literals may use it again.
-/

namespace TierVault.Zstandard

structure Literals where
  content : Array UInt8
  /-- The last code that was in use. -/
  code : Option PrefixCode
  /-- How many bytes of the block the literals take. -/
  length : Nat

namespace Literals

/-! ## Reading -/

/-- The size of raw or repeated literals, and the bytes that tell it. -/
def readPlainSize (block : Array UInt8) : Nat × Nat :=
  match bitsAt block 2 2 with
  | 1 => (bitsAt block 4 12, 2)
  | 3 => (bitsAt block 4 20, 3)
  | _ => (bitsAt block 3 5, 1)

/-- The number of bits for each of the two sizes of coded literals. -/
def sizeWidth (format : Nat) : Nat :=
  match format with
  | 2 => 14
  | 3 => 18
  | _ => 10

def readRaw? (limit : Nat) (code : Option PrefixCode) (block : Array UInt8) : Option Literals :=
  let (size, head) := readPlainSize block
  if block.size < head + size ∨ limit < size then none
  else some ⟨block.extract head (head + size), code, head + size⟩

def readRepeated? (limit : Nat) (code : Option PrefixCode) (block : Array UInt8) :
    Option Literals := do
  let (size, head) := readPlainSize block
  let byte ← block[head]?
  if limit < size then none
  return ⟨Array.replicate size byte, code, head + 1⟩

/-- Literals in the code given, or in one that stands in front of them. -/
def readCoded? (limit : Nat) (known : Option PrefixCode) (block : Array UInt8) :
    Option Literals := do
  let format := bitsAt block 2 2
  let width := sizeWidth format
  let size := bitsAt block 4 width
  let head := (4 + 2 * width) / 8
  let length := head + bitsAt block (4 + width) width
  if block.size < 5 ∨ limit < size ∨ block.size < length then none
  let body := block.extract head length
  let (code, taken) ← match known with
    | some code => some (code, 0)
    | none => PrefixCode.read? body
  let streams := body.extract taken body.size
  let content ← if format = 0 then code.readStream? size streams else code.readStreams? size streams
  return ⟨content, some code, length⟩

/-- Reads the literals of a block, of which there may be `limit` bytes. -/
def read? (limit : Nat) (code : Option PrefixCode) (block : Array UInt8) : Option Literals :=
  match bitsAt block 0 2 with
  | 0 => readRaw? limit code block
  | 1 => readRepeated? limit code block
  | 2 => readCoded? limit none block
  | _ => if code.isNone then none else readCoded? limit code block

/-! ## Writing -/

def plainHead (kind size : Nat) : Bytes :=
  if size < 32 then Field.pack [⟨kind, 2⟩, ⟨0, 1⟩, ⟨size, 5⟩]
  else if size < 4096 then Field.pack [⟨kind, 2⟩, ⟨1, 2⟩, ⟨size, 12⟩]
  else Field.pack [⟨kind, 2⟩, ⟨3, 2⟩, ⟨size, 20⟩]

def raw (content : List UInt8) : Bytes := plainHead 0 content.length ++ content

def repeated (count : Nat) (byte : UInt8) : Bytes := plainHead 1 count ++ [byte]

def codedHead (format size length : Nat) : Bytes :=
  Field.pack [⟨2, 2⟩, ⟨format, 2⟩, ⟨size, sizeWidth format⟩, ⟨length, sizeWidth format⟩]

/-- Literals fit these formats by their number: one stream, and four streams with ever longer
sizes. -/
def formatFor (size : Nat) : Nat :=
  if size < 256 then 0 else if size < 1024 then 1 else if size < 16384 then 2 else 3

def countsOf (content : List UInt8) : List Nat :=
  let counts := content.foldl (fun counts byte => counts.modify byte.toNat (· + 1))
    (Array.replicate 256 0)
  (counts.toList.reverse.dropWhile (· == 0)).reverse

/-- What coding has to save to be worth its while. -/
def leastGain (size : Nat) : Nat := size / 64 + 2

/-- Literals in a code of their own. There are none if the content is too short, its bytes are too
evenly frequent, or the code would not save enough. -/
def coded? (content : List UInt8) (counts : List Nat) : Option Bytes := do
  let size := content.length
  let most := counts.foldl max 0
  if size < 64 ∨ most ≤ size / 128 + 4 then none
  let limit := Distribution.fittingLog 11 1 size (counts.length - 1)
  let code := PrefixCode.ofCounts limit counts
  let description ← code.write?
  if size ≤ description.length + 12 then none
  let format := formatFor size
  let streams ←
    if format = 0 then some (PrefixCode.writeStream code.fields content)
    else PrefixCode.writeStreams? code.fields content
  let length := description.length + streams.length
  if size ≤ length + leastGain size then none
  return codedHead format size length ++ description ++ streams

/-- `mayCode` tells whether a code is tried. -/
def write (mayCode : Bool) (content : List UInt8) : Bytes :=
  let counts := countsOf content
  match content with
  | byte :: _ =>
    if !mayCode || content.length < 64 then raw content
    else if counts.getLast? = some content.length then repeated content.length byte
    else (coded? content counts).getD (raw content)
  | [] => raw []

end Literals

end TierVault.Zstandard

import TierVault.Zstandard.Copies
import TierVault.Zstandard.Frame

/-!
The frame codec in use.

Content is cut into blocks, each of which is searched for copies. Every packed frame is unpacked again
before it is handed out; should that ever give something else, the content is stored in raw blocks.
Main statement: what is packed is unpacked as it was.
-/

/-! # Frames in a row

Frames one after the other, those of the four earlier formats among them.

The content of all frames is put together. Some frames are skipped: they hold no content.
-/

/-! ## Earlier formats

Their blocks have no mark for the last; a block of a kind of its own, or an empty block, ends the
frame. Only raw blocks are read. Output goes through a buffer, which has to have room for each block
as a whole. -/

namespace TierVault.Zstandard.Earlier

inductive Format
  | fourth
  | fifth
  | sixth
  | seventh
  deriving DecidableEq

structure Layout where
  /-- A block that comes in parts may have this size. Blocks over the largest size come in parts. -/
  blockSize : Nat
  /-- The size of the output buffer. -/
  room : Nat
  hasDigest : Bool

def magicOf : Format → Bytes
  | .fourth => [0x24, 0xB5, 0x2F, 0xFD]
  | .fifth => [0x25, 0xB5, 0x2F, 0xFD]
  | .sixth => [0x26, 0xB5, 0x2F, 0xFD]
  | .seventh => [0x27, 0xB5, 0x2F, 0xFD]

def format? (magic : Bytes) : Option Format :=
  [.fourth, .fifth, .sixth, .seventh].find? fun format => magicOf format == magic

/-- The layout for a window, where the buffer has room for a block more. -/
def Layout.ofWindow (window : Nat) (hasDigest : Bool) : Layout :=
  let blockSize := min window Header.largestBlock
  ⟨blockSize, window + blockSize + 16, hasDigest⟩

def readLayout (format : Format) (flags : Nat) (input : Bytes) :
    Except FrameDefect (Layout × Bytes) := do
  match format with
  | .fourth | .fifth =>
    if 16 ≤ flags then throw .corrupt
    return (⟨Header.largestBlock, 2048 <<< flags, false⟩, input)
  | .sixth =>
    let (_, input) ← takeBytes ([0, 1, 2, 8].getD (flags / 64) 0) input
    if flags / 32 % 2 = 1 then throw .corrupt
    return (.ofWindow (4096 <<< (flags % 16)) false, input)
  | .seventh =>
    let (header, input) ← Header.read flags input
    if Header.largestWindow < header.window then throw .corrupt
    return (.ofWindow (max 1024 header.window) header.hasDigest, input)

/-- The digest of the content stands in the head of the block that ends the frame. -/
def fitsDigest (head : Nat) (content : Bytes) : Bool :=
  head % 4194304 == (XxHash64.digest content).toNat / 2048 % 4194304

/-- Reads blocks up to the end; each takes three bytes at least. `place` is where the next block goes
in the buffer. -/
def readBlocks (layout : Layout) :
    (bound place : Nat) → (written : Array UInt8) → Bytes → Except FrameDefect (Bytes × Bytes)
  | 0, _, _, _ => .error .incomplete
  | bound + 1, place, written, input => do
    let (bytes, input) ← takeBytes 3 input
    let head := LittleEndian.number bytes.reverse
    let kind := head / 4194304
    let size := head % 524288
    if kind = 3 then
      let content := written.toList
      if layout.hasDigest && !fitsDigest head content then throw .corrupt
      return (content, input)
    let length := if kind = 2 then 1 else size
    if length = 0 then return (written.toList, input)
    let body := input.take length
    if body.length < length ∨ Header.largestBlock < length then
      throw (if layout.blockSize < length ∧ body ≠ [] then .corrupt else .incomplete)
    if kind ≠ 1 ∨ layout.room < place + length then throw .corrupt
    let stop := place + length
    readBlocks layout bound (if layout.room < stop + layout.blockSize then 0 else stop)
      (written ++ body) (input.drop length)

/-- Reads a frame that follows its magic number. -/
def readContent (format : Format) (input : Bytes) : Except FrameDefect (Bytes × Bytes) := do
  let (flags, input) ← takeNumber 1 input
  let (layout, input) ← readLayout format flags input
  readBlocks layout input.length 0 #[] input

end TierVault.Zstandard.Earlier

/-! ## Frames in a row -/

namespace TierVault.Zstandard

/-- The sixteen numbers from this on begin frames that are skipped. -/
def firstSkipped : Nat := 0x184D2A50

def isSkipped (magic : Bytes) : Bool := LittleEndian.number magic / 16 == firstSkipped / 16

def skippedMagic (index : Nat) : Bytes := LittleEndian.bytes 4 (firstSkipped + index)

/-- Whether a frame may begin with these bytes, of which there are fewer than five. -/
def mayBegin (input : Bytes) : Bool :=
  let start := input.take 4
  start.isPrefixOf frameMagic ||
    (List.range 16).any fun index => start.isPrefixOf (skippedMagic index)

def skip (input : Bytes) : Except FrameDefect (Bytes × Bytes) := do
  let (size, input) ← takeNumber 4 input
  let (_, input) ← takeBytes size input
  return ([], input)

/-- Reads a frame. It is not looked at before there are five bytes, which the header takes at least. -/
def readFrame (input : Bytes) : Except FrameDefect (Bytes × Bytes) :=
  if (input.take 5).length < 5 then
    .error (if mayBegin input then .incomplete else .corrupt)
  else
    let magic := input.take 4
    let rest := input.drop 4
    if magic = frameMagic then readContent rest
    else if isSkipped magic then skip rest
    else match Earlier.format? magic with
      | some format => Earlier.readContent format rest
      | none => .error .corrupt

/-- Reads frames up to the end of the input; each takes at least five bytes, so the length of the input
bounds their number. -/
def readFrames : (bound : Nat) → (written : Array UInt8) → Bytes → Except FrameDefect Bytes
  | 0, _, _ => .error .incomplete
  | bound + 1, written, input => do
    let (content, input) ← readFrame input
    match input with
    | [] => return (written ++ content).toList
    | _ => readFrames bound (written ++ content) input

/-- The content of frames. There has to be one at least. -/
def unpack (input : Bytes) : Except FrameDefect Bytes :=
  readFrames (input.length + 1) #[] input

end TierVault.Zstandard

/-! # The codec -/

namespace TierVault.Zstandard

/-- The flags and the window of every packed frame: nothing but a window of two megabytes. -/
def packedHead : Bytes := frameMagic ++ [0x00, 0x58]

def packedWindow : Nat := 2097152

def writeHead (isLast : Bool) (kind size : Nat) : Bytes :=
  LittleEndian.bytes 3 ((if isLast then 1 else 0) + 2 * kind + 8 * size)

/-- Blocks of full size, and a last one that is smaller. -/
def packBlocks (mayCode : Bool) (content : Array UInt8) :
    (bound start : Nat) → Search → (packed : Array UInt8) → Array UInt8
  | 0, _, _, packed => packed
  | bound + 1, start, search, packed =>
    let isLast := content.size < start + Header.largestBlock
    let stop := min content.size (start + Header.largestBlock)
    let ⟨places, recent, older⟩ := search
    let (found, after) := Search.run ⟨content, stop - packedWindow, stop⟩ start
      ⟨places, recent, older⟩
    let (block, search) :=
      match writeBlock? mayCode content start stop found.toList with
      | some block => (writeHead isLast 2 block.length ++ block, after)
      | none =>
        (writeHead isLast 0 (stop - start) ++ (content.extract start stop).toList,
          { after with recent, older })
    let packed := packed ++ block
    if isLast then packed else packBlocks mayCode content bound stop search packed

def packRaw (content : Bytes) : Bytes :=
  if content.length < Header.largestBlock then writeHead true 0 content.length ++ content
  else
    writeHead false 0 Header.largestBlock ++ content.take Header.largestBlock ++
      packRaw (content.drop Header.largestBlock)
termination_by content.length
decreasing_by simp only [List.length_drop, Header.largestBlock] at *; omega

def unpacksTo (frame content : Bytes) : Bool :=
  match unpack frame with
  | .ok unpacked => unpacked == content
  | .error _ => false

/-- Negative levels are fast: they leave literals as they are. -/
def pack (level : Int) (content : Bytes) : Bytes :=
  let bytes := content.toArray
  let blocks := packBlocks (0 ≤ level) bytes (content.length + 1) 0 ⟨.start, 1, 4⟩ #[]
  let frame := packedHead ++ blocks.toList
  if unpacksTo frame content then frame else packedHead ++ packRaw content

/-! ## What is packed is unpacked as it was -/

theorem takeBytes_append (first rest : Bytes) (count : Nat) (same : first.length = count) :
    takeBytes count (first ++ rest) = .ok (first, rest) := by
  simp [takeBytes, ← same]

theorem read_writeHead (isLast : Bool) (size : Nat) (rest : Bytes)
    (small : size ≤ Header.largestBlock) :
    BlockHead.read (writeHead isLast 0 size ++ rest) = .ok (⟨isLast, .raw, size⟩, rest) := by
  have least : Header.largestBlock = 131072 := rfl
  have power : Nat.pow 256 3 = 16777216 := rfl
  let number := (if isLast then 1 else 0) + 2 * 0 + 8 * size
  have taken : takeNumber 3 (writeHead isLast 0 size ++ rest) = .ok (number, rest) := by
    have bound : number < 16777216 := by
      simp only [number]
      split <;> omega
    simp only [takeNumber, writeHead]
    rw [takeBytes_append _ _ _ (LittleEndian.length_bytes 3 _)]
    simp only [bind, Except.bind, pure, Except.pure, LittleEndian.number_bytes, power]
    rw [Nat.mod_eq_of_lt bound]
  have head : BlockHead.ofNumber? number = some ⟨isLast, .raw, size⟩ := by
    have kind : number / 2 % 4 = 0 := by
      simp only [number]
      split <;> omega
    have half : number / 8 = size := by
      simp only [number]
      split <;> omega
    have last : decide (number % 2 = 1) = isLast := by
      cases isLast <;> simp [number] <;> omega
    simp [BlockHead.ofNumber?, kind, half, last]
  simp [BlockHead.read, taken, head, bind, Except.bind, pure, Except.pure]

/-- The header that every packed frame has. -/
def packedHeader : Header := ⟨packedWindow, none, false⟩

theorem readBlocks_writeHead (isLast : Bool) (content rest : Bytes) (bound : Nat)
    (history : History) (small : content.length ≤ Header.largestBlock) :
    readBlocks .byBlock packedHeader (bound + 1) history
        (writeHead isLast 0 content.length ++ (content ++ rest)) =
      let history := { history with written := history.written ++ content }
      if isLast then .ok (history.written.toList, rest)
      else readBlocks .byBlock packedHeader bound history rest := by
  have limit : packedHeader.blockLimit = Header.largestBlock := rfl
  have within : ¬ Header.largestBlock < content.length := Nat.not_lt.mpr small
  have exceeded (count : Nat) : packedHeader.isExceeded count = false := rfl
  have fits (written : Array UInt8) : packedHeader.fits written = true := rfl
  have noDigest : packedHeader.hasDigest = false := rfl
  cases isLast <;>
    simp [readBlocks, read_writeHead _ _ _ small, bind, Except.bind, BlockHead.length, limit, within,
      readBody, exceeded, fits, noDigest, pure, Except.pure]

theorem length_packRaw (content : Bytes) : content.length < (packRaw content).length := by
  induction content using packRaw.induct with
  | case1 content small =>
    rw [packRaw, if_pos small]
    simp [writeHead]
  | case2 content large induction =>
    rw [packRaw, if_neg large]
    simp only [List.length_append, List.length_drop, List.length_take, writeHead,
      LittleEndian.length_bytes] at *
    omega

theorem readBlocks_packRaw (content : Bytes) (bound : Nat) (history : History)
    (enough : content.length < bound) :
    readBlocks .byBlock packedHeader bound history (packRaw content) =
      .ok (history.written.toList ++ content, []) := by
  induction content using packRaw.induct generalizing bound history with
  | case1 content small =>
    obtain ⟨bound, rfl⟩ : ∃ before, bound = before + 1 := ⟨bound - 1, by omega⟩
    have step := readBlocks_writeHead true content [] bound history (Nat.le_of_lt small)
    rw [packRaw, if_pos small]
    simpa using step
  | case2 content large induction =>
    obtain ⟨bound, rfl⟩ : ∃ before, bound = before + 1 := ⟨bound - 1, by omega⟩
    have size : (content.take Header.largestBlock).length = Header.largestBlock := by
      simp only [List.length_take]
      omega
    have step := readBlocks_writeHead false (content.take Header.largestBlock)
      (packRaw (content.drop Header.largestBlock)) bound history (by omega)
    rw [size] at step
    rw [packRaw, if_neg large, List.append_assoc, step]
    simp only [Bool.false_eq_true, if_false]
    rw [induction _ _ (by
      have least : Header.largestBlock = 131072 := rfl
      simp only [List.length_drop]
      omega)]
    simp

theorem unpack_packRaw (content : Bytes) :
    unpack (packedHead ++ packRaw content) = .ok content := by
  have blocks := readBlocks_packRaw content (packRaw content).length .start
    (length_packRaw content)
  have frame : readFrame (packedHead ++ packRaw content) = .ok (content, []) := by
    simpa [readFrame, packedHead, frameMagic, readContent, takeNumber, takeBytes, bind, Except.bind,
      pure, Except.pure, Header.read, Header.sizeWidth, LittleEndian.number, Header.windowOf,
      Header.largestWindow, packedHeader, packedWindow, History.start] using blocks
  simp [unpack, readFrames, frame, bind, Except.bind, pure, Except.pure]

theorem unpack_of_unpacksTo {frame content : Bytes} (same : unpacksTo frame content = true) :
    unpack frame = .ok content := by
  unfold unpacksTo at same
  split at same
  · rename_i unpacked result
    rw [result, eq_of_beq same]
  · cases same

theorem unpack_pack (level : Int) (content : Bytes) : unpack (pack level content) = .ok content := by
  simp only [pack]
  split
  · exact unpack_of_unpacksTo ‹_›
  · exact unpack_packRaw content

theorem magic_pack (level : Int) (content : Bytes) : frameMagic <+: pack level content := by
  simp only [pack, packedHead, List.append_assoc]
  split <;> exact List.prefix_append _ _

def codec : FrameCodec where
  pack := pack
  unpack := unpack
  unpack_pack := unpack_pack
  magic_pack := magic_pack

end TierVault.Zstandard

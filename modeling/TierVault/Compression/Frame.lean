import TierVault.Text.Utf8

/-!
Compressed frames.

A frame codec packs any content into a frame and takes the content out again. Frames begin with a
fixed magic number, by which a reader tells a frame from content that was kept raw. A compressor is a
codec with a level and a smallest length worth packing; content that packing does not make shorter is
kept raw.
-/

namespace TierVault

inductive CompressionError
  /-- The bytes are no frames. -/
  | decompress
  deriving DecidableEq

/-- Why bytes are no frames. -/
inductive FrameDefect
  /-- They end within a frame, or there is none. -/
  | incomplete
  | corrupt
  deriving DecidableEq

/-- The four bytes that begin every frame. -/
def frameMagic : Bytes := [0x28, 0xB5, 0x2F, 0xFD]

structure FrameCodec where
  pack : (level : Int) → Bytes → Bytes
  unpack : Bytes → Except FrameDefect Bytes
  unpack_pack : ∀ level content, unpack (pack level content) = .ok content
  magic_pack : ∀ level content, frameMagic <+: pack level content

structure Compressor where
  codec : FrameCodec
  level : Int
  /-- Shorter content is kept raw. -/
  minimum : Nat

def isFrame (stored : Bytes) : Bool :=
  frameMagic.isPrefixOf stored

namespace Compressor

def compress (compressor : Compressor) (content : Bytes) : Bytes :=
  compressor.codec.pack compressor.level content

def decompress (compressor : Compressor) (stored : Bytes) : Except CompressionError Bytes :=
  match compressor.codec.unpack stored with
  | .ok content => .ok content
  | .error _ => .error .decompress

/-- What to store for the content, and whether it is a frame. -/
def compressIfShorter (compressor : Compressor) (content : Bytes) : Bytes × Bool :=
  if content.length < compressor.minimum then (content, false)
  else
    let frame := compressor.compress content
    if content.length ≤ frame.length then (content, false) else (frame, true)

/-- Anything that does not begin like a frame passes through. -/
def decompressIfFrame (compressor : Compressor) (stored : Bytes) : Except CompressionError Bytes :=
  if isFrame stored then compressor.decompress stored else .ok stored

end Compressor

end TierVault

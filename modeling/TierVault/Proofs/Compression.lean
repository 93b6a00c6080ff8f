import TierVault.Config.Basic
import TierVault.Proofs.Value.Encoding
import TierVault.Zstandard.Codec

/-!
Frames and raw content are told apart by how they begin.

A reader takes whatever begins like a frame for one. Content that begins so itself and is kept raw is misread,
unless it happens to be a frame of itself. Encodings of values never begin so: their first byte tells one of nine
kinds. So for them the first bytes and the flag of a row say the same, however the writer and the reader are
configured.
-/

namespace TierVault

open Codec

variable {value : Value} {encoded : Bytes}

theorem isFrame_iff {stored : Bytes} : isFrame stored = true ↔ frameMagic <+: stored :=
  List.isPrefixOf_iff_prefix

theorem isFrame_of_encode (encodes : value.encode = .ok encoded) : isFrame encoded = false := by
  obtain ⟨number, content, known, rfl⟩ := Value.encode_begins encodes
  have begins : kind number = UInt8.ofNat number :: LittleEndian.bytes 3 (number / 256) := rfl
  rw [begins]
  have apart : (0x28 : UInt8) ≠ UInt8.ofNat number := by
    have each : ∀ other < 9, (0x28 : UInt8) ≠ UInt8.ofNat other := by decide
    exact each number known
  rw [isFrame, frameMagic, List.cons_append, List.isPrefixOf_cons_cons, beq_eq_false_iff_ne.mpr apart]
  rfl

/-- The compressor that the configuration asks for. -/
def CompressionConfig.compressor (config : CompressionConfig) (codec : FrameCodec) : Compressor :=
  ⟨codec, config.level, config.minimumBytes⟩

namespace Compressor

variable {compressor reader writer : Compressor}

/-! ## What is kept -/

/-- Content is kept as it is, or in a frame that is shorter. -/
theorem compressIfShorter_cases (compressor : Compressor) (content : Bytes) :
    compressor.compressIfShorter content = (content, false) ∨
      compressor.compressIfShorter content = (compressor.compress content, true) ∧
        (compressor.compress content).length < content.length := by
  unfold compressIfShorter
  split
  · exact .inl rfl
  · dsimp only
    split
    · exact .inl rfl
    · rename_i shorter
      exact .inr ⟨rfl, Nat.lt_of_not_le shorter⟩

theorem length_kept_le (compressor : Compressor) (content : Bytes) :
    (compressor.compressIfShorter content).1.length ≤ content.length := by
  rcases compressor.compressIfShorter_cases content with raw | ⟨framed, shorter⟩
  · exact Nat.le_of_eq (by rw [raw])
  · rw [framed]
    exact Nat.le_of_lt shorter

theorem isFrame_compress (compressor : Compressor) (content : Bytes) :
    isFrame (compressor.compress content) = true :=
  isFrame_iff.mpr (compressor.codec.magic_pack _ _)

/-- Of what is kept for an encoding, frames alone begin like frames. -/
theorem isFrame_kept (writer : Compressor) (encodes : value.encode = .ok encoded) :
    isFrame (writer.compressIfShorter encoded).1 = (writer.compressIfShorter encoded).2 := by
  rcases writer.compressIfShorter_cases encoded with raw | ⟨framed, -⟩
  · rw [raw]
    exact isFrame_of_encode encodes
  · rw [framed]
    exact writer.isFrame_compress encoded

/-! ## How it is read -/

theorem decompress_compress (compressor : Compressor) (content : Bytes) :
    compressor.decompress (compressor.compress content) = .ok content := by
  rw [decompress, compress, compressor.codec.unpack_pack]

/-- The level and the minimum are for writing alone. -/
theorem decompress_congr (shared : reader.codec = writer.codec) : reader.decompress = writer.decompress := by
  funext stored
  rw [decompress, decompress, shared]

theorem decompressIfFrame_congr (shared : reader.codec = writer.codec) :
    reader.decompressIfFrame = writer.decompressIfFrame := by
  funext stored
  rw [decompressIfFrame, decompressIfFrame, decompress_congr shared]

/-- The flag tells frames, and whoever heeds it reads what was kept. -/
theorem heed_flag (compressor : Compressor) (content : Bytes) :
    (if (compressor.compressIfShorter content).2
      then compressor.decompress (compressor.compressIfShorter content).1
      else .ok (compressor.compressIfShorter content).1) = .ok content := by
  rcases compressor.compressIfShorter_cases content with raw | ⟨framed, -⟩
  · rw [raw]
    rfl
  · rw [framed, if_pos rfl]
    exact compressor.decompress_compress content

theorem decompressIfFrame_eq_self_iff (reader : Compressor) (content : Bytes) :
    reader.decompressIfFrame content = .ok content ↔
      isFrame content = false ∨ reader.codec.unpack content = .ok content := by
  unfold decompressIfFrame
  cases isFrame content with
  | false => exact iff_of_true rfl (.inl rfl)
  | true =>
      rw [if_pos rfl, decompress]
      cases reader.codec.unpack content <;> simp

/-- What is kept for any content reads as that content exactly if it is a frame, or does not begin like one, or is
a frame of itself. -/
theorem decompressIfFrame_kept_iff (compressor : Compressor) (content : Bytes) :
    compressor.decompressIfFrame (compressor.compressIfShorter content).1 = .ok content ↔
      (compressor.compressIfShorter content).2 = true ∨ isFrame content = false ∨
        compressor.codec.unpack content = .ok content := by
  rcases compressor.compressIfShorter_cases content with raw | ⟨framed, -⟩
  · rw [raw, decompressIfFrame_eq_self_iff]
    simp
  · rw [framed, decompressIfFrame, isFrame_compress, if_pos rfl]
    exact iff_of_true (compressor.decompress_compress content) (.inl rfl)

example : (CompressionConfig.compressor {} Zstandard.codec).compressIfShorter frameMagic = (frameMagic, false) := by
  decide

example : (CompressionConfig.compressor {} Zstandard.codec).decompressIfFrame frameMagic = .error .decompress := rfl

theorem decompressIfFrame_raw (encodes : value.encode = .ok encoded) :
    compressor.decompressIfFrame encoded = .ok encoded :=
  (compressor.decompressIfFrame_eq_self_iff encoded).mpr (.inl (isFrame_of_encode encodes))

/-- What is kept for an encoding, be it a frame or not, is read back, and is no longer. -/
theorem decompressIfFrame_compressIfShorter (encodes : value.encode = .ok encoded) :
    compressor.decompressIfFrame (compressor.compressIfShorter encoded).1 = .ok encoded ∧
      (compressor.compressIfShorter encoded).1.length ≤ encoded.length := by
  have plain := isFrame_of_encode encodes
  exact ⟨(compressor.decompressIfFrame_kept_iff encoded).mpr (.inr (.inl plain)),
    compressor.length_kept_le encoded⟩

/-- No encoding begins like a frame, and whatever is kept for an encoding is no longer than the encoding and is
read back, by its first bytes as well as by its flag. -/
theorem told_apart (codec : FrameCodec) (writing reading : CompressionConfig)
    (serializable : value.isSerializable = true) :
    ∃ encoded, value.encode = .ok encoded ∧ ¬ frameMagic <+: encoded ∧
      ∀ stored packed, (writing.compressor codec).compressIfShorter encoded = (stored, packed) →
        stored.length ≤ encoded.length ∧
          (reading.compressor codec).decompressIfFrame stored = .ok encoded ∧
            (if packed then (reading.compressor codec).decompress stored else .ok stored) = .ok encoded ∧
              isFrame stored = packed := by
  obtain ⟨encoded, encodes⟩ := (Value.encode_ok_iff value).mpr serializable
  have plain := isFrame_of_encode encodes
  have shared : (reading.compressor codec).codec = (writing.compressor codec).codec := rfl
  refine ⟨encoded, encodes, fun begins => ?_, fun stored packed kept => ?_⟩
  · exact absurd (isFrame_iff.mpr begins) (Bool.eq_false_iff.mp plain)
  · have shorter := (writing.compressor codec).length_kept_le encoded
    have back := ((writing.compressor codec).decompressIfFrame_kept_iff encoded).mpr (.inr (.inl plain))
    have heeded := (writing.compressor codec).heed_flag encoded
    have told := (writing.compressor codec).isFrame_kept encodes
    rw [kept] at shorter back heeded told
    rw [decompress_congr shared, decompressIfFrame_congr shared]
    exact ⟨shorter, back, heeded, told⟩

/-- Packs content into the blocks that are suggested for it, if they unpack to it. -/
def framesBy (suggest : Bytes → Bytes) : FrameCodec where
  pack _ content :=
    if Zstandard.unpacksTo (Zstandard.packedHead ++ suggest content) content then
      Zstandard.packedHead ++ suggest content
    else Zstandard.packedHead ++ Zstandard.packRaw content
  unpack := Zstandard.unpack
  unpack_pack _ content := by
    split
    · exact Zstandard.unpack_of_unpacksTo ‹_›
    · exact Zstandard.unpack_packRaw content
  magic_pack _ content := by
    rw [Zstandard.packedHead, List.append_assoc, List.append_assoc]
    split <;> exact List.prefix_append _ _

/-- A raw block of five bytes, and one byte repeated. -/
def runFrames : FrameCodec := framesBy fun content =>
  Zstandard.writeHead false 0 5 ++ content.take 5 ++
    Zstandard.writeHead true 1 (content.length - 5) ++ content.drop (content.length - 1)

/-- A reader that would keep the value raw reads the frame that another writer made of it. -/
theorem told_apart_packed :
    let value : Value := .bytes (List.replicate 60 0)
    let writer := CompressionConfig.compressor { minimumBytes := 0 } runFrames
    let reader := CompressionConfig.compressor { level := 19, minimumBytes := 4096 } runFrames
    value.isSerializable = true ∧
      ∃ encoded stored, value.encode = .ok encoded ∧ ¬ frameMagic <+: encoded ∧
        writer.compressIfShorter encoded = (stored, true) ∧ stored.length ≤ encoded.length ∧
          reader.decompressIfFrame stored = .ok encoded ∧ reader.decompress stored = .ok encoded ∧
            isFrame stored = true := by
  intro value writer reader
  have serializable : value.isSerializable = true := rfl
  obtain ⟨encoded, encodes, plain, told⟩ :=
    told_apart runFrames { minimumBytes := 0 } { level := 19, minimumBytes := 4096 } serializable
  have packed : (writer.compressIfShorter encoded).2 = true := by
    cases encodes
    decide +kernel
  exact ⟨serializable, encoded, _, encodes, plain, Prod.ext rfl packed, told _ true (Prod.ext rfl packed)⟩

end Compressor

end TierVault

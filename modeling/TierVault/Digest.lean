import TierVault.LittleEndian
import TierVault.Text.Utf8

/-!
Digests of bytes: FNV-1a of 64 bits, XXH64 with seed zero, and SHA-256.
-/

/-! ## FNV-1a

Each byte is mixed into the lowest bits of the digest, which is then multiplied by a prime; so the
digest of two parts in a row continues from the digest of the first. -/

namespace TierVault.Fnv

def offsetBasis : UInt64 := 14695981039346656037

def prime : UInt64 := 1099511628211

def absorb (digest : UInt64) (byte : UInt8) : UInt64 := (digest ^^^ byte.toUInt64) * prime

def absorbAll (digest : UInt64) (content : Bytes) : UInt64 := content.foldl absorb digest

def digest (content : Bytes) : UInt64 := absorbAll offsetBasis content

theorem absorbAll_append (start : UInt64) (left right : Bytes) :
    absorbAll start (left ++ right) = absorbAll (absorbAll start left) right :=
  List.foldl_append

example : digest [] = 14695981039346656037 := rfl
example : digest [0x61] = 0xaf63dc4c8601ec8c := by decide

end TierVault.Fnv

/-! ## XXH64

Whole stripes of 32 bytes are mixed into four lanes, a word of eight bytes each. What is left after
the last stripe is mixed in by words of eight and of four bytes, and byte by byte. -/

namespace TierVault.XxHash64

def prime1 : UInt64 := 11400714785074694791
def prime2 : UInt64 := 14029467366897019727
def prime3 : UInt64 := 1609587929392839161
def prime4 : UInt64 := 9650029242287828579
def prime5 : UInt64 := 2870177450012600261

def rotate (word : UInt64) (count : UInt64) : UInt64 :=
  (word <<< count) ||| (word >>> (64 - count))

def wordOf (content : Bytes) : UInt64 := UInt64.ofNat (LittleEndian.number content)

def mixLane (lane word : UInt64) : UInt64 := rotate (lane + word * prime2) 31 * prime1

structure Lanes where
  first : UInt64
  second : UInt64
  third : UInt64
  fourth : UInt64

def Lanes.start : Lanes := ⟨prime1 + prime2, prime2, 0, 0 - prime1⟩

def Lanes.mix (lanes : Lanes) (stripe : Bytes) : Lanes where
  first := mixLane lanes.first (wordOf (stripe.take 8))
  second := mixLane lanes.second (wordOf ((stripe.drop 8).take 8))
  third := mixLane lanes.third (wordOf ((stripe.drop 16).take 8))
  fourth := mixLane lanes.fourth (wordOf ((stripe.drop 24).take 8))

/-- The lanes after `count` stripes, and what follows these. -/
def mixStripes : (count : Nat) → Lanes → Bytes → Lanes × Bytes
  | 0, lanes, content => (lanes, content)
  | count + 1, lanes, content => mixStripes count (lanes.mix (content.take 32)) (content.drop 32)

def joinLane (digest lane : UInt64) : UInt64 := (digest ^^^ mixLane 0 lane) * prime1 + prime4

def Lanes.join (lanes : Lanes) : UInt64 :=
  let sum := rotate lanes.first 1 + rotate lanes.second 7 + rotate lanes.third 12 +
    rotate lanes.fourth 18
  joinLane (joinLane (joinLane (joinLane sum lanes.first) lanes.second) lanes.third) lanes.fourth

def mixByte (digest : UInt64) (byte : UInt8) : UInt64 :=
  rotate (digest ^^^ (byte.toUInt64 * prime5)) 11 * prime1

/-- At most one word of four bytes, and then single bytes. -/
def mixShort (digest : UInt64) (content : Bytes) : UInt64 :=
  if content.length < 4 then content.foldl mixByte digest
  else
    let word := wordOf (content.take 4)
    (content.drop 4).foldl mixByte (rotate (digest ^^^ (word * prime1)) 23 * prime2 + prime3)

/-- `count` words of eight bytes, and then what is shorter. -/
def mixWords : (count : Nat) → UInt64 → Bytes → UInt64
  | 0, digest, content => mixShort digest content
  | count + 1, digest, content =>
    let word := mixLane 0 (wordOf (content.take 8))
    mixWords count (rotate (digest ^^^ word) 27 * prime1 + prime4) (content.drop 8)

/-- Spreads every bit over the whole word. -/
def spread (digest : UInt64) : UInt64 :=
  let digest := (digest ^^^ (digest >>> 33)) * prime2
  let digest := (digest ^^^ (digest >>> 29)) * prime3
  digest ^^^ (digest >>> 32)

def digest (content : Bytes) : UInt64 :=
  let (lanes, rest) := mixStripes (content.length / 32) .start content
  let start := if content.length < 32 then prime5 else lanes.join
  spread (mixWords (rest.length / 8) (start + UInt64.ofNat content.length) rest)

example : digest [] = 0xef46db3751d8e999 := by decide

end TierVault.XxHash64

/-! ## SHA-256

A message is padded to whole blocks of 64 bytes. Each block is expanded to 64 words and mixed into
eight words of state, whose bytes are the digest. -/

namespace TierVault.Sha256

/-- The first 32 bits of the fractional parts of the cube roots of the first 64 primes. -/
def roundConstants : List UInt32 :=
  [ 0x428a2f98, 0x71374491, 0xb5c0fbcf, 0xe9b5dba5, 0x3956c25b, 0x59f111f1,
    0x923f82a4, 0xab1c5ed5, 0xd807aa98, 0x12835b01, 0x243185be, 0x550c7dc3,
    0x72be5d74, 0x80deb1fe, 0x9bdc06a7, 0xc19bf174, 0xe49b69c1, 0xefbe4786,
    0x0fc19dc6, 0x240ca1cc, 0x2de92c6f, 0x4a7484aa, 0x5cb0a9dc, 0x76f988da,
    0x983e5152, 0xa831c66d, 0xb00327c8, 0xbf597fc7, 0xc6e00bf3, 0xd5a79147,
    0x06ca6351, 0x14292967, 0x27b70a85, 0x2e1b2138, 0x4d2c6dfc, 0x53380d13,
    0x650a7354, 0x766a0abb, 0x81c2c92e, 0x92722c85, 0xa2bfe8a1, 0xa81a664b,
    0xc24b8b70, 0xc76c51a3, 0xd192e819, 0xd6990624, 0xf40e3585, 0x106aa070,
    0x19a4c116, 0x1e376c08, 0x2748774c, 0x34b0bcb5, 0x391c0cb3, 0x4ed8aa4a,
    0x5b9cca4f, 0x682e6ff3, 0x748f82ee, 0x78a5636f, 0x84c87814, 0x8cc70208,
    0x90befffa, 0xa4506ceb, 0xbef9a3f7, 0xc67178f2 ]

/-- The first 32 bits of the fractional parts of the square roots of the first eight primes. -/
def initialState : List UInt32 :=
  [ 0x6a09e667, 0xbb67ae85, 0x3c6ef372, 0xa54ff53a, 0x510e527f, 0x9b05688c,
    0x1f83d9ab, 0x5be0cd19 ]

def rotate (word : UInt32) (places : UInt32) : UInt32 :=
  (word >>> places) ||| (word <<< (32 - places))

/-- The message with a one bit, zeros, and its length in bits in the last eight bytes. -/
def pad (message : Bytes) : Bytes :=
  let zeros := (119 - message.length % 64) % 64
  let bits := message.length * 8
  message ++ [0x80] ++ List.replicate zeros 0 ++
    (List.range 8).map fun index => UInt8.ofNat (bits / Nat.pow 256 (7 - index))

/-- Four bytes, most significant first. -/
def wordOfBytes (bytes : Bytes) : UInt32 :=
  bytes.foldl (fun word byte => (word <<< 8) ||| byte.toUInt32) 0

def bytesOfWord (word : UInt32) : Bytes :=
  [(word >>> 24).toUInt8, (word >>> 16).toUInt8, (word >>> 8).toUInt8, word.toUInt8]

/-- Consecutive groups of `size` items, at most `count` of them. -/
def groups {Item : Type} (size : Nat) : (count : Nat) → List Item → List (List Item)
  | 0, _ => []
  | count + 1, items =>
    if items.isEmpty then [] else items.take size :: groups size count (items.drop size)

/-- The words of a block, extended to 64. -/
def schedule (block : Bytes) : Array UInt32 :=
  let first := ((groups 4 16 block).map wordOfBytes).toArray
  (List.range 48).foldl
    (fun words step =>
      let word (back : Nat) := words.getD (step + 16 - back) 0
      let early := word 15
      let late := word 2
      let small := rotate early 7 ^^^ rotate early 18 ^^^ (early >>> 3)
      let large := rotate late 17 ^^^ rotate late 19 ^^^ (late >>> 10)
      words.push (word 16 + small + word 7 + large))
    first

structure State where
  a : UInt32
  b : UInt32
  c : UInt32
  d : UInt32
  e : UInt32
  f : UInt32
  g : UInt32
  h : UInt32

def State.words (state : State) : List UInt32 :=
  [state.a, state.b, state.c, state.d, state.e, state.f, state.g, state.h]

def State.ofWords (words : List UInt32) : State :=
  let word (index : Nat) := words.getD index 0
  ⟨word 0, word 1, word 2, word 3, word 4, word 5, word 6, word 7⟩

def round (state : State) (constant word : UInt32) : State :=
  let large := rotate state.e 6 ^^^ rotate state.e 11 ^^^ rotate state.e 25
  let choice := (state.e &&& state.f) ^^^ (~~~state.e &&& state.g)
  let first := state.h + large + choice + constant + word
  let small := rotate state.a 2 ^^^ rotate state.a 13 ^^^ rotate state.a 22
  let majority := (state.a &&& state.b) ^^^ (state.a &&& state.c) ^^^ (state.b &&& state.c)
  { a := first + small + majority
    b := state.a
    c := state.b
    d := state.c
    e := state.d + first
    f := state.e
    g := state.f
    h := state.g }

def mixBlock (words : List UInt32) (block : Bytes) : List UInt32 :=
  let start := State.ofWords words
  let mixed := (roundConstants.zip (schedule block).toList).foldl
    (fun state (constant, word) => round state constant word) start
  (words.zip mixed.words).map fun (left, right) => left + right

def digest (message : Bytes) : Bytes :=
  let padded := pad message
  ((groups 64 (padded.length / 64) padded).foldl mixBlock initialState).flatMap bytesOfWord

end TierVault.Sha256

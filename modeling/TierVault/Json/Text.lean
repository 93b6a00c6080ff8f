import TierVault.Json.Reader
import TierVault.Text.Hexadecimal

/-!
Strings in JSON text.

A string ends at the first quote that is not escaped. Control characters must be escaped; a character
beyond the first plane is escaped as a pair.
-/

namespace TierVault.Json

def hexUnit : Reader Nat
  | a :: b :: c :: d :: input =>
    match Hexadecimal.ofDigits? ([a, b, c, d].map fun byte => Char.ofNat byte.toNat) with
    | some unit => .ok (unit, input)
    | none => stop .badEscape input
  | _ => stop .endInText []

/-- Takes one byte that goes on with a pair. -/
def pairByte (expected : Char) : Reader Unit
  | [] => stop .endInText []
  | byte :: rest => if byte = code expected then .ok ((), rest) else stop .endOfEscape rest

/-- The character of an escape after its `u`; one beyond the first plane takes two escapes. -/
def unicodeEscape : Reader Bytes := fun input => do
  let (unit, rest) ← hexUnit input
  if unit < 0xD800 ∨ 0xDFFF < unit then
    return (Utf8.encode (Char.ofNat unit).toString, rest)
  if 0xDC00 ≤ unit then stop .halfPair rest
  let (_, rest) ← pairByte '\\' rest
  let (_, rest) ← pairByte 'u' rest
  let (low, rest) ← hexUnit rest
  if low < 0xDC00 ∨ 0xDFFF < low then stop .halfPair rest
  let point := (unit - 0xD800) * 1024 + (low - 0xDC00) + 0x10000
  return (Utf8.encode (Char.ofNat point).toString, rest)

/-- What a one-letter escape stands for. -/
def simpleEscape? (byte : UInt8) : Option UInt8 :=
  if byte = code '"' then some (code '"')
  else if byte = code '\\' then some (code '\\')
  else if byte = code '/' then some (code '/')
  else if byte = code 'b' then some 8
  else if byte = code 'f' then some 12
  else if byte = code 'n' then some 10
  else if byte = code 'r' then some 13
  else if byte = code 't' then some 9
  else none

/-- The bytes of a string after its opening quote; those read so far stand in reverse. -/
def stringBytes : (bound : Nat) → (read : Bytes) → Reader Bytes
  | _, _, [] => stop .endInText []
  | 0, _, input => stop .endInText input
  | bound + 1, read, byte :: input =>
    if byte = code '"' then .ok (read.reverse, input)
    else if byte = code '\\' then
      match input with
      | [] => stop .endInText []
      | escape :: rest =>
        if escape = code 'u' then do
          let (letter, rest) ← unicodeEscape rest
          stringBytes bound (letter.reverse ++ read) rest
        else match simpleEscape? escape with
          | some letter => stringBytes bound (letter :: read) rest
          | none => stop .badEscape rest
    else if byte < 0x20 then stop .controlCharacter input
    else stringBytes bound (byte :: read) input

/-- A string after its opening quote. -/
def stringRest : Reader String := fun input => do
  let (bytes, rest) ← stringBytes input.length [] input
  match Utf8.decode bytes with
  | .ok text => return (text, rest)
  | .error _ => stop .badCharacter rest

end TierVault.Json

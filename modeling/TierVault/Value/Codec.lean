import TierVault.LittleEndian
import TierVault.Value.Basic

/-!
The binary form of values.

A value is its kind as a four-byte number, followed by its content. Numbers are little endian, counts
and lengths take eight bytes, a text is its length and its UTF-8 bytes, a list its count and its
items, a map its count and its pairs in field order. The length of this form is the size that every
storage budget counts. Reading takes what it needs and leaves the rest; of map fields with one name
the last counts, and the shape of a table is not checked.
-/

namespace TierVault

inductive DecodeError
  | endOfInput
  /-- The length of a text is larger than the rest of the input. -/
  | textTooLong
  | unknownKind (number bound : Nat)
  | notAFlag (byte : UInt8)
  | notUtf8 (defect : Utf8.Defect)
  deriving DecidableEq

inductive CodecError
  /-- The value holds a live handle. -/
  | notSerializable
  | decode (error : DecodeError)
  deriving DecidableEq

def DecodeError.message : DecodeError → String
  | .endOfInput => "io error: unexpected end of file"
  | .textTooLong => "io error: "
  | .unknownKind number bound =>
      s!"invalid value: integer `{number}`, expected variant index 0 <= i < {bound}"
  | .notAFlag byte => s!"invalid u8 while decoding bool, expected 0 or 1, found {byte.toNat}"
  | .notUtf8 defect => "string is not valid utf8: " ++ defect.message

def CodecError.message : CodecError → String
  | .notSerializable =>
      "Value cannot be serialized: the enum variant Value::Opaque cannot be serialized"
  | .decode error => "Payload cannot be decoded: " ++ error.message

namespace Codec

/-! ## Writing -/

def kind (number : Nat) : Bytes := LittleEndian.bytes 4 number

def count (number : Nat) : Bytes := LittleEndian.bytes 8 number

def word (bits : UInt64) : Bytes := LittleEndian.bytes 8 bits.toNat

def text (content : String) : Bytes :=
  let encoded := Utf8.encode content
  count encoded.length ++ encoded

def flag (truth : Bool) : Bytes := if truth then [1] else [0]

/-- A count and then each item's bytes. -/
def sequence {Item : Type} (item : Item → Bytes) (items : List Item) : Bytes :=
  count items.length ++ items.flatMap item

def columnData : ColumnData → Bytes
  | .integers items => kind 0 ++ sequence (fun number => word number.toUInt64) items
  | .floats items => kind 1 ++ sequence (fun number => word number.bits) items
  | .texts items => kind 2 ++ sequence text items
  | .flags items => kind 3 ++ sequence flag items

def column (content : Column) : Bytes :=
  text content.name ++ columnData content.data

def table (content : Table) : Bytes := sequence column content.columns

/-! ## Reading -/

/-- Takes a thing from the front of the input and returns what is left. -/
abbrev Reader (Item : Type) := Bytes → Except DecodeError (Item × Bytes)

def readNumber : (width : Nat) → Reader Nat
  | 0, input => .ok (0, input)
  | _ + 1, [] => .error .endOfInput
  | width + 1, byte :: input => do
    let (high, rest) ← readNumber width input
    return (byte.toNat + 256 * high, rest)

def readKind (bound : Nat) : Reader Nat := fun input => do
  let (number, rest) ← readNumber 4 input
  if number < bound then return (number, rest) else throw (.unknownKind number bound)

def readCount : Reader Nat := readNumber 8

def readWord : Reader UInt64 := fun input => do
  let (number, rest) ← readNumber 8 input
  return (UInt64.ofNat number, rest)

def readText : Reader String := fun input => do
  let (length, rest) ← readCount input
  if rest.length < length then throw .textTooLong
  match Utf8.decode (rest.take length) with
  | .ok content => return (content, rest.drop length)
  | .error defect => throw (.notUtf8 defect)

def readFlag : Reader Bool := fun input =>
  match input with
  | [] => .error .endOfInput
  | 0 :: rest => .ok (false, rest)
  | 1 :: rest => .ok (true, rest)
  | byte :: _ => .error (.notAFlag byte)

def readBytes : Reader Bytes := fun input => do
  let (length, rest) ← readCount input
  if rest.length < length then throw .endOfInput
  return (rest.take length, rest.drop length)

def readMany {Item : Type} (read : Reader Item) : Nat → Reader (List Item)
  | 0, input => .ok ([], input)
  | remaining + 1, input => do
    let (item, rest) ← read input
    let (items, rest) ← readMany read remaining rest
    return (item :: items, rest)

def readSequence {Item : Type} (read : Reader Item) : Reader (List Item) := fun input => do
  let (length, rest) ← readCount input
  readMany read length rest

def readColumnData : Reader ColumnData := fun input => do
  let (number, rest) ← readKind 4 input
  match number with
  | 0 =>
    let (items, rest) ← readSequence readWord rest
    return (.integers (items.map UInt64.toInt64), rest)
  | 1 =>
    let (items, rest) ← readSequence readWord rest
    return (.floats (items.map Binary64.mk), rest)
  | 2 =>
    let (items, rest) ← readSequence readText rest
    return (.texts items, rest)
  | _ =>
    let (items, rest) ← readSequence readFlag rest
    return (.flags items, rest)

def readColumn : Reader Column := fun input => do
  let (name, rest) ← readText input
  let (data, rest) ← readColumnData rest
  return (⟨name, data⟩, rest)

def readTable : Reader Table := fun input => do
  let (columns, rest) ← readSequence readColumn input
  return (⟨columns⟩, rest)

def readField (read : Reader Value) : Reader (String × Value) := fun input => do
  let (name, rest) ← readText input
  let (value, rest) ← read rest
  return ((name, value), rest)

/-- Reads a value whose parts nest no deeper than `depth`. Each level of nesting takes at least one
byte, so the length of the input is depth enough. -/
def readValue : (depth : Nat) → Reader Value
  | 0, _ => .error .endOfInput
  | depth + 1, input => do
    let (number, rest) ← readKind 9 input
    match number with
    | 0 => return (.null, rest)
    | 1 =>
      let (truth, rest) ← readFlag rest
      return (.flag truth, rest)
    | 2 =>
      let (bits, rest) ← readWord rest
      return (.integer bits.toInt64, rest)
    | 3 =>
      let (bits, rest) ← readWord rest
      return (.float ⟨bits⟩, rest)
    | 4 =>
      let (content, rest) ← readText rest
      return (.text content, rest)
    | 5 =>
      let (content, rest) ← readBytes rest
      return (.bytes content, rest)
    | 6 =>
      let (items, rest) ← readSequence (readValue depth) rest
      return (.list items, rest)
    | 7 =>
      let (fields, rest) ← readSequence (readField (readValue depth)) rest
      return (Value.mapOfFields fields, rest)
    | _ =>
      let (content, rest) ← readTable rest
      return (.table content, rest)

end Codec

namespace Value

open Codec in
mutual

def encode : Value → Except CodecError Bytes
  | null => .ok (kind 0)
  | flag truth => .ok (kind 1 ++ Codec.flag truth)
  | integer number => .ok (kind 2 ++ word number.toUInt64)
  | float number => .ok (kind 3 ++ word number.bits)
  | text content => .ok (kind 4 ++ Codec.text content)
  | bytes content => .ok (kind 5 ++ count content.length ++ content)
  | list items => do
    let body ← encodeItems items
    return kind 6 ++ count items.length ++ body
  | map fields => do
    let body ← encodeFields fields
    return kind 7 ++ count fields.length ++ body
  | table content => .ok (kind 8 ++ Codec.table content)
  | live _ => .error .notSerializable

def encodeItems : List Value → Except CodecError Bytes
  | [] => .ok []
  | item :: rest => do
    let first ← encode item
    let others ← encodeItems rest
    return first ++ others

def encodeFields : List (String × Value) → Except CodecError Bytes
  | [] => .ok []
  | (name, value) :: rest => do
    let first ← encode value
    let others ← encodeFields rest
    return Codec.text name ++ first ++ others

end

/-- Reads a value from the front of the bytes and tells what is left. -/
def read (input : Bytes) : Except DecodeError (Value × Bytes) :=
  Codec.readValue input.length input

/-- Reads a value from the front of the bytes; what follows it is ignored. -/
def decode (input : Bytes) : Except CodecError Value :=
  match read input with
  | .ok (value, _) => .ok value
  | .error error => .error (.decode error)

/-! ## Size without writing -/

def encodedTextSize (content : String) : Nat := 8 + utf8Length content

def encodedColumnDataSize : ColumnData → Nat
  | .integers items => 12 + items.length * 8
  | .floats items => 12 + items.length * 8
  | .texts items => 12 + sumOf (items.map encodedTextSize)
  | .flags items => 12 + items.length

def encodedTableSize (content : Table) : Nat :=
  8 + sumOf (content.columns.map fun column =>
    encodedTextSize column.name + encodedColumnDataSize column.data)

mutual

/-- The length of the encoding. -/
def encodedSize : Value → Except CodecError Nat
  | null => .ok 4
  | flag _ => .ok 5
  | integer _ => .ok 12
  | float _ => .ok 12
  | text content => .ok (4 + encodedTextSize content)
  | bytes content => .ok (12 + content.length)
  | list items => do
    let body ← encodedItemsSize items
    return 12 + body
  | map fields => do
    let body ← encodedFieldsSize fields
    return 12 + body
  | table content => .ok (4 + encodedTableSize content)
  | live _ => .error .notSerializable

def encodedItemsSize : List Value → Except CodecError Nat
  | [] => .ok 0
  | item :: rest => do
    let first ← encodedSize item
    let others ← encodedItemsSize rest
    return first + others

def encodedFieldsSize : List (String × Value) → Except CodecError Nat
  | [] => .ok 0
  | (name, value) :: rest => do
    let first ← encodedSize value
    let others ← encodedFieldsSize rest
    return encodedTextSize name + first + others

end

example : encode (list [flag true]) =
    .ok [6, 0, 0, 0, 1, 0, 0, 0, 0, 0, 0, 0, 1, 0, 0, 0, 1] := rfl

example : decode [6, 0, 0, 0, 1, 0, 0, 0, 0, 0, 0, 0, 0, 0, 0, 0] = .ok (list [null]) := rfl

end Value

end TierVault

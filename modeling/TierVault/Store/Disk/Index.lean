import TierVault.Keyed
import TierVault.Json.Record
import TierVault.Json.Writer

/-!
The index of a directory of payload files, and its text form.

The index has a record for each key, and a clock that numbers the accesses. A record tells which file
holds the payload and in which format, and when it was last used on the index's clock.
-/

namespace TierVault

inductive PayloadFormat
  /-- A columnar file. -/
  | columnar
  /-- The value's encoding, perhaps in a compressed frame. -/
  | binary
  deriving DecidableEq, Inhabited

structure DiskRecord where
  /-- The file, relative to the directory of the index. -/
  file : String
  /-- The length of the value's encoding, which the budget counts. -/
  size : Nat
  /-- The length of the file. -/
  storedBytes : Nat
  format : PayloadFormat
  compressed : Bool
  /-- Seconds on the wall clock. -/
  createdAt : Nat
  /-- The last use on the index's clock. -/
  accessedAt : Nat
  accessCount : Nat
  deriving DecidableEq, Inhabited

structure DiskIndex where
  records : Keyed String DiskRecord
  clock : Nat
  deriving DecidableEq, Inhabited

namespace PayloadFormat

def name : PayloadFormat → String
  | columnar => "Parquet"
  | binary => "Binary"

def ofName? (name : String) : Option PayloadFormat :=
  [columnar, binary].find? fun format => format.name == name

open Json in
/-- A format that was read by its name. -/
def named (name : String) : Reader PayloadFormat := fun rest =>
  match ofName? name with
  | some format => .ok (format, rest)
  | none => stop (.mismatch (.name name)) rest

open Json in
/-- A format is its name, or an object with the name as its only key and `null` in it. -/
def reader : Reader PayloadFormat := atValue fun byte rest =>
  if byte = code '\x7b' then do
    let (key?, rest) ← nextKey true rest
    match key? with
    | none => stop .noValue rest
    | some key =>
      let (format, rest) ← named key rest
      let (_, rest) ← colon rest
      match ← optional (string "a format") rest with
      | (none, rest) =>
        let (_, rest) ← closeObject rest
        return (format, rest)
      | (some text, rest) => stop (.mismatch (.kind (.text text) "null")) rest
  else do
    let (name, rest) ← string "a format" (byte :: rest)
    named name rest

end PayloadFormat

namespace DiskRecord

open Json in
def fields : List (RecordField DiskRecord) :=
  [field "file" (string "a string") (fun record file => { record with file }) false,
    field "size_bytes" (natural Word.limit "a word") (fun record size => { record with size }) false,
    field "stored_bytes" (natural Word.limit "a word")
      (fun record storedBytes => { record with storedBytes }) false,
    field "format" PayloadFormat.reader (fun record format => { record with format }) false,
    field "compressed" truth (fun record compressed => { record with compressed }) false,
    field "created_at" (natural Word.limit "a word")
      (fun record createdAt => { record with createdAt }) false,
    field "accessed_at" (natural Word.limit "a word")
      (fun record accessedAt => { record with accessedAt }) false,
    field "access_count" (natural Word.limit "a word")
      (fun record accessCount => { record with accessCount }) false]

def reader : Json.Reader DiskRecord := Json.record "a record" fields default

def document (record : DiskRecord) : Json.Document :=
  .object
    [("file", .string record.file), ("size_bytes", .integer record.size),
      ("stored_bytes", .integer record.storedBytes), ("format", .string record.format.name),
      ("compressed", .truth record.compressed), ("created_at", .integer record.createdAt),
      ("accessed_at", .integer record.accessedAt), ("access_count", .integer record.accessCount)]

end DiskRecord

namespace DiskIndex

def empty : DiskIndex := ⟨[], 0⟩

open Json in
/-- A later record of a key takes the place of an earlier one. -/
def recordsReader : Reader (Keyed String DiskRecord) := fun input => do
  let (members, rest) ← objectOf DiskRecord.reader input
  return (members.foldl (fun records (key, record) => Keyed.put key record records) [], rest)

open Json in
def fields : List (RecordField DiskIndex) :=
  [field "entries" recordsReader (fun index records => { index with records }) false,
    field "clock" (natural Word.limit "a word") (fun index clock => { index with clock }) false]

/-- Reads the text form of an index. -/
def parse (text : Bytes) : Except Json.Defect DiskIndex :=
  Json.whole (Json.record "an index" fields empty) text

def document (index : DiskIndex) : Json.Document :=
  .object
    [("entries", .object (index.records.map fun (key, record) => (key, record.document))),
      ("clock", .integer index.clock)]

def text (index : DiskIndex) : Bytes := Utf8.encode index.document.compact

/-- Records in the order of their last use, oldest first. -/
def oldestFirst (records : Keyed String DiskRecord) : Keyed String DiskRecord :=
  records.mergeSort fun left right => left.2.accessedAt ≤ right.2.accessedAt

end DiskIndex

end TierVault

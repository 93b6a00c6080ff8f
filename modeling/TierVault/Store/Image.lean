import TierVault.FileSystem.Basic
import TierVault.Value.Codec

/-!
Databases and columnar files as the bytes of a file.

An image is a mark and then the rows, least recently used first, or the columns. A file whose bytes are
no image holds just those bytes.
-/

namespace TierVault

namespace Image

def rowsMark : Bytes := Utf8.encode "TierVault rows 1\n"

def columnsMark : Bytes := Utf8.encode "TierVault columns 1\n"

def writeRow (row : Resident Blob) : Bytes :=
  Codec.text row.key ++ Codec.count row.size ++ Codec.count row.item.accessCount ++
    Codec.flag row.item.compressed ++ Codec.count row.item.payload.length ++ row.item.payload

def readRow : Codec.Reader (Resident Blob) := fun input => do
  let (key, rest) ← Codec.readText input
  let (size, rest) ← Codec.readCount rest
  let (accessCount, rest) ← Codec.readCount rest
  let (compressed, rest) ← Codec.readFlag rest
  let (payload, rest) ← Codec.readBytes rest
  return (⟨key, size, { payload, compressed, accessCount }⟩, rest)

/-- What follows a mark and ends with its last item. -/
def after? {Item : Type} (mark : Bytes) (read : Codec.Reader Item) (content : Bytes) :
    Option (List Item) :=
  if mark.isPrefixOf content then
    match Codec.readSequence read (content.drop mark.length) with
    | .ok (items, []) => some items
    | _ => none
  else none

end Image

namespace Node

/-- The bytes that a file is kept as; a directory has none. -/
def image? : Node → Option Bytes
  | directory => none
  | file content => some content
  | zeros length => some (List.replicate length 0)
  | database rows => some (Image.rowsMark ++ Codec.sequence Image.writeRow rows)
  | columnar content =>
    some (Image.columnsMark ++ Codec.sequence Codec.column content.columns)

def ofImage (content : Bytes) : Node :=
  match Image.after? Image.rowsMark Image.readRow content with
  | some rows => .database rows
  | none =>
    match Image.after? Image.columnsMark Codec.readColumn content with
    | some columns => .columnar ⟨columns⟩
    | none => .file content

end Node

end TierVault

import TierVault.Stream.Basic
import TierVault.Value.Table

/-!
Where streams begin: lists, numbered items, lines and chunks of a file, slices of a table.
-/

namespace TierVault

namespace Source

variable {Item : Type}

def ofList (items : List Item) : Source Item where
  Core := List Item
  core := items
  pull
    | [] => return (none, [])
    | item :: rest => return (some item, rest)
  remaining := List.length

/-- The items numbered from 0 up to `count`. -/
def numbered (count : Nat) (item : Nat → Except Fault Item) : Source Item where
  Core := Nat
  core := 0
  pull index :=
    if index < count then do
      let item ← Action.ofExcept (item index)
      return (some item, index + 1)
    else return (none, index)
  remaining index := count - index

end Source

/-- How many groups of `size` make up `count`, the last one perhaps short. -/
def groupCount (count size : Nat) : Nat := (count + size - 1) / size

/-- Bytes as lines, each with its line end if it has one; at most `bound` of them. -/
def splitLines : (bound : Nat) → Bytes → List Bytes
  | 0, _ => []
  | bound + 1, content =>
    if content.isEmpty then []
    else
      let line := content.takeWhile (· ≠ 10)
      match content.dropWhile (· ≠ 10) with
      | [] => [line]
      | newline :: rest => (line ++ [newline]) :: splitLines bound rest

/-- A line without its line end: a newline, or a carriage return and a newline. -/
def trimLine (line : Bytes) : Bytes :=
  match line.reverse with
  | 10 :: 13 :: rest => rest.reverse
  | 10 :: rest => rest.reverse
  | _ => line

def linesOf (content : Bytes) : List Bytes := splitLines content.length content

/-- The texts up to the first line that is not UTF-8. -/
def textsBefore : List Bytes → List String
  | [] => []
  | line :: rest =>
    match Utf8.decode line with
    | .ok _ =>
      match Utf8.decode (trimLine line) with
      | .ok text => text :: textsBefore rest
      | .error _ => []
    | .error _ => []

/-- Consecutive groups of `size`, at most `bound` of them. -/
def chunksOf {Item : Type} (size : Nat) : (bound : Nat) → List Item → List (List Item)
  | 0, _ => []
  | bound + 1, items =>
    if items.isEmpty then [] else items.take size :: chunksOf size bound (items.drop size)

namespace Stream

variable {Item : Type}

/-- The total is known. -/
def ofList (items : List Item) : Stream Item :=
  ofSource (.ofList items) (some items.length) 1 none

/-- The total is not known. -/
def ofItems (source : Source Item) : Stream Item := ofSource source none 1 none

/-- The items that a producer hands over through a buffer of `capacity`. -/
def ofProducer (capacity : Nat) (items : List Item) : Stream Item :=
  ofSource (.ofList items) none (max capacity 1) none

/-- Bytes of buffer for each line of a chunk. -/
def bufferBytesPerLine : Nat := 64

/-- The bytes that a reader of lines sets aside for a chunk; they must be a word. -/
def lineBuffer (chunkSize : Nat) : Except Fault Nat :=
  Word.product (max chunkSize 1) bufferBytesPerLine

/-- The lines of a file. The total counts every line; the stream stops at the first one that is not
UTF-8. A line weighs its bytes and one for its end. -/
def ofLines (content : Bytes) (chunkSize : Nat) : Stream String :=
  let lines := linesOf content
  ofSource (.ofList (textsBefore lines)) (some lines.length) (max chunkSize 1)
    (some fun line => utf8Length line + 1)

/-- A file in pieces of `chunkBytes`; the last one may be short. -/
def ofChunks (content : Bytes) (chunkBytes : Nat) : Stream Bytes :=
  let size := max chunkBytes 1
  ofSource (.ofList (chunksOf size content.length content))
    (some (groupCount content.length size)) size (some List.length)

/-- A table in slices of `chunkRows`; the last one may be short. -/
def ofTable (table : Table) (chunkRows : Nat) : Stream Table :=
  let size := max chunkRows 1
  let total := groupCount table.rowCount size
  ofSource (.numbered total fun index => table.slice (index * size) size) (some total) size
    (some Table.footprint)

end Stream

end TierVault

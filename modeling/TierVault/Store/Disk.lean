import TierVault.Digest
import TierVault.Store.Basic
import TierVault.Store.Disk.Index
import TierVault.Text.Hexadecimal

/-!
A store in the files of a directory.

Each value lies in a file of its own, named by the digest of its key. A payload is written to a
temporary file and moved into place. The index tells which files belong to which keys; it is written to
its own file after every change but a read, and when the store is closed.

A write goes in four steps: choose the keys that must leave, write the payload, change the index, and
write the index. The files of the keys that left are removed last.
-/

namespace TierVault

structure DiskSettings where
  root : String
  budget : Nat
  /-- Tables are written as columnar files. -/
  columnar : Bool
  compress : Bool
  compressor : Compressor

/-- Totals of the payloads written and read. -/
structure Transfers where
  writes : Nat
  reads : Nat
  bytesWritten : Nat
  bytesRead : Nat
  deriving DecidableEq, Inhabited

/-- What an open disk store holds in memory. -/
structure DiskBook where
  index : DiskIndex
  /-- The index differs from its file. -/
  dirty : Bool
  transfers : Transfers
  deriving DecidableEq, Inhabited

structure DiskWorld where
  book : DiskBook
  files : FileSystem

abbrev DiskAction (Result : Type) := StoreAction DiskWorld Result

/-- A payload file as it was written. -/
structure WrittenPayload where
  format : PayloadFormat
  compressed : Bool
  storedBytes : Nat
  deriving DecidableEq, Inhabited

namespace DiskSettings

def indexFile (settings : DiskSettings) : String := FileName.join settings.root "metadata.json"

def indexDraft (settings : DiskSettings) : String := FileName.join settings.root "metadata.json.tmp"

end DiskSettings

namespace DiskStore

/-! ## File names -/

/-- Names below the root: two digits of the digest, then the whole digest. -/
def shelf (key : String) : String × String :=
  let digits := Hexadecimal.ofBytes (Sha256.digest (Utf8.encode key))
  ((digits.take 2).toString, digits)

def directoryFor (settings : DiskSettings) (key : String) : String :=
  FileName.join settings.root (shelf key).1

def fileFor (key : String) : String := (shelf key).1 ++ "/" ++ (shelf key).2 ++ ".cache"

def nameFor (settings : DiskSettings) (key : String) : String :=
  FileName.join settings.root (fileFor key)

def draftFor (settings : DiskSettings) (key : String) : String :=
  FileName.join (directoryFor settings key) ((shelf key).2 ++ ".tmp")

/-! ## Steps -/

def onFiles {Result : Type} (action : FileAction Result) : DiskAction Result :=
  .within DiskWorld.files (fun world files => { world with files }) (.onFiles action)

def changeBook (change : DiskBook → DiskBook) : DiskAction Unit :=
  modify fun world => { world with book := change world.book }

def changeRecords (change : Keyed String DiskRecord → Keyed String DiskRecord) :
    DiskAction Unit :=
  changeBook fun book =>
    { book with index := { book.index with records := change book.index.records } }

def records : DiskAction (Keyed String DiskRecord) :=
  return (← getThe DiskWorld).book.index.records

/-- Advances the index's clock. -/
def nextTick : DiskAction Nat := do
  let tick ← .checked (Word.sum (← getThe DiskWorld).book.index.clock 1)
  changeBook fun book => { book with index := { book.index with clock := tick } }
  return tick

def markDirty : DiskAction Unit := changeBook fun book => { book with dirty := true }

/-- Writes the index to its file if it has changed. -/
def persist (settings : DiskSettings) : DiskAction Unit := do
  let book := (← getThe DiskWorld).book
  if !book.dirty then return ()
  onFiles (FileSystem.writeFile settings.indexDraft book.index.text)
  onFiles (FileSystem.rename settings.indexDraft settings.indexFile)
  changeBook fun book => { book with dirty := false }

/-- Removes the file of a record; a file that is not there or cannot be removed is left alone. -/
def removeFileOf (settings : DiskSettings) (file : String) : DiskAction Unit := do
  .attempt (onFiles (FileSystem.removeFile (FileName.join settings.root file)))

/-- The oldest keys that must leave so that `incoming` more bytes fit. -/
def leaving (budget incoming : Nat) : (used : Nat) → Keyed String DiskRecord → List String
  | _, [] => []
  | used, (key, record) :: rest =>
    if used + incoming ≤ budget then []
    else key :: leaving budget incoming (used - record.size) rest

/-- The keys that a value of `incoming` bytes under `key` drives out. -/
def victims (budget : Nat) (records : Keyed String DiskRecord) (key : String) (incoming : Nat) :
    Except Fault (List String) := do
  let others := Keyed.remove key records
  let used ← Word.total (others.map fun (_, record) => record.size)
  let _ ← Word.sum used incoming
  return leaving budget incoming used (DiskIndex.oldestFirst others)

/-- The bytes to store for a value that does not go into a columnar file. -/
def binaryContent (settings : DiskSettings) (value : Value) : Except CodecError (Bytes × Bool) := do
  let encoded ← value.encode
  return if settings.compress then settings.compressor.compressIfShorter encoded
    else (encoded, false)

/-- Writes a payload to the temporary file. -/
def writeDraft (settings : DiskSettings) (draft : String) (value : Value) :
    DiskAction WrittenPayload := do
  match value.table?.filter fun table => settings.columnar && Columnar.supports table with
  | some table =>
    let level := if settings.compress then some settings.compressor.level else none
    onFiles (FileSystem.writeFile draft [])
    let file ← .ofExcept .columnar (Columnar.write table level)
    onFiles (FileSystem.writeNode draft (.columnar file))
    return ⟨.columnar, settings.compress, file.length⟩
  | none =>
    let (content, compressed) ← .ofExcept .codec (binaryContent settings value)
    onFiles (FileSystem.writeFile draft content)
    return ⟨.binary, compressed, content.length⟩

/-- Writes the payload of a key and moves it into place. -/
def writePayload (settings : DiskSettings) (key : String) (value : Value) :
    DiskAction WrittenPayload := do
  onFiles (FileSystem.makeDirectories (directoryFor settings key))
  let draft := draftFor settings key
  tryCatchThe StoreError
    (do
      let written ← writeDraft settings draft value
      onFiles (FileSystem.rename draft (nameFor settings key))
      return written)
    fun error => do
      .attempt (onFiles (FileSystem.removeFile draft))
      throw error

/-- Puts the written payload into the index in place of the victims, and tells the victims' files. -/
def commit (key : String) (size : Nat) (victims : List String) (written : WrittenPayload) :
    DiskAction (List String) := do
  let leaving := (← records).filter fun (key, _) => victims.contains key
  changeRecords fun records => records.filter fun (key, _) => !victims.contains key
  let tick ← nextTick
  let seconds := (← getThe DiskWorld).files.seconds
  changeRecords (Keyed.put key
    { file := fileFor key, size, storedBytes := written.storedBytes, format := written.format,
      compressed := written.compressed, createdAt := seconds, accessedAt := tick,
      accessCount := 0 })
  markDirty
  let transfers := (← getThe DiskWorld).book.transfers
  let writes ← .checked (Word.sum transfers.writes 1)
  let bytesWritten ← .checked (Word.sum transfers.bytesWritten written.storedBytes)
  changeBook fun book => { book with transfers := { transfers with writes, bytesWritten } }
  return leaving.map fun (_, record) => record.file

def readPayload (settings : DiskSettings) (name : String) (format : PayloadFormat) :
    DiskAction Value := do
  match format with
  | .columnar =>
    let node ← onFiles (FileSystem.openNode name)
    let file ← .ofExcept .columnar node.columnar?
    return .table (← .ofExcept .columnar (Columnar.read file))
  | .binary =>
    let stored ← onFiles (FileSystem.readFile name)
    let content ← .ofExcept .compression (settings.compressor.decompressIfFrame stored)
    .ofExcept .codec (Value.decode content)

/-- Counts a read. -/
def noteRead (key : String) (record : DiskRecord) : DiskAction Unit := do
  let tick ← nextTick
  let used (record : DiskRecord) (count : Nat) : DiskRecord :=
    { record with accessedAt := tick, accessCount := count }
  match Keyed.find? key (← records) with
  | some held =>
    changeRecords (Keyed.put key (used held held.accessCount))
    let count ← .checked (Word.sum held.accessCount 1)
    changeRecords (Keyed.put key (used held count))
  | none => pure ()
  markDirty
  let transfers := (← getThe DiskWorld).book.transfers
  let reads ← .checked (Word.sum transfers.reads 1)
  let bytesRead ← .checked (Word.sum transfers.bytesRead record.storedBytes)
  changeBook fun book => { book with transfers := { transfers with reads, bytesRead } }

/-! ## Calls -/

/-- Opens the store of a directory. An index that cannot be read counts as empty, and records whose
files are gone are dropped. -/
def openIn (settings : DiskSettings) : StoreAction FileSystem DiskBook := do
  .onFiles (FileSystem.makeDirectories settings.root)
  let files ← getThe FileSystem
  let index : DiskIndex ←
    if files.has settings.indexFile then do
      match ← ExceptT.lift (StoreAction.onFiles (FileSystem.readFile settings.indexFile)).run with
      | .ok text => pure ((DiskIndex.parse text).toOption.getD .empty)
      | .error _ => pure .empty
    else pure .empty
  let kept := index.records.filter fun (_, record) =>
    files.has (FileName.join settings.root record.file)
  return ⟨{ index with records := kept }, kept.length < index.records.length, default⟩

/-- Writes the index for the last time. -/
def close (settings : DiskSettings) : DiskAction Unit := .attempt (persist settings)

def get (settings : DiskSettings) (key : String) : DiskAction (Option Value) := do
  match Keyed.find? key (← records) with
  | none => return none
  | some record =>
    let name := FileName.join settings.root record.file
    if !(← getThe DiskWorld).files.has name then
      changeRecords (Keyed.remove key)
      markDirty
      return none
    let value ← readPayload settings name record.format
    noteRead key record
    return some value

def put (settings : DiskSettings) (key : String) (value : Value) : DiskAction Unit := do
  let size ← .ofExcept .codec value.encodedSize
  if settings.budget < size then throw (.tooLarge size settings.budget)
  let victims ← .checked (victims settings.budget (← records) key size)
  let written ← writePayload settings key value
  let files ← commit key size victims written
  let persisted ← ExceptT.lift (persist settings).run
  files.forM (removeFileOf settings)
  .ofExcept id persisted

def delete (settings : DiskSettings) (key : String) : DiskAction Bool := do
  match Keyed.find? key (← records) with
  | none => return false
  | some record =>
    changeRecords (Keyed.remove key)
    markDirty
    persist settings
    removeFileOf settings record.file
    return true

/-- Directories of payload files have names of two bytes. -/
def isShelfName (name : String) : Bool := utf8Length name == 2

/-- Empties the index and removes the directories of payload files, whatever is in them. -/
def clear (settings : DiskSettings) : DiskAction Unit := do
  changeRecords fun _ => []
  markDirty
  persist settings
  let names ← onFiles (FileSystem.list settings.root)
  let files := (← getThe DiskWorld).files
  let shelves := (names.filter isShelfName).map (FileName.join settings.root)
  (shelves.filter fun shelf => (files.named? shelf).any Node.isDirectory).forM fun shelf =>
    onFiles (FileSystem.removeTree shelf)

def size : DiskAction Nat := do
  .checked (Word.total ((← records).map fun (_, record) => record.size))

def entries : DiskAction (List (String × Nat)) :=
  return (DiskIndex.oldestFirst (← records)).map fun (key, record) => (key, record.size)

/-- Bytes of the files in the directories below the root. -/
def diskUsage (settings : DiskSettings) (files : FileSystem) : Nat :=
  match files.find settings.root with
  | .error _ => 0
  | .ok root =>
    let inside := (files.below root).filter fun (path, _) => path.length = root.length + 2
    sumOf (inside.map fun (_, node) => node.length?.getD 0)

def store (settings : DiskSettings) : Store DiskWorld where
  name := if settings.columnar then "columnar" else "compressed"
  budget := settings.budget
  get := get settings
  put := put settings
  has key := return Keyed.has key (← records)
  delete := delete settings
  clear := clear settings
  size := size
  entries := entries

end DiskStore

end TierVault

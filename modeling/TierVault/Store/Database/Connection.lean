import TierVault.FileSystem.Lookup
import TierVault.LittleEndian
import TierVault.Store.Database.Error
import TierVault.Store.Database.Name

/-!
Open databases.

Opening looks for the file, makes it if it may, and tidies up what an interrupted run left beside it: a
journal or a log of changes that were not finished. A file of at most one byte is an empty database,
which gets its tables before anything else, and so does a database without tables.
-/

/-! ## The first page

A file that is not ours may still be a database: its header has a fixed shape, and behind it the page
tells what tables there are. Such a file is of use only if it has no tables yet. -/

namespace TierVault.DatabaseHeader

/-- A number of some bytes, most significant first; beyond the end there are zeros. -/
def number (content : Bytes) (place width : Nat) : Nat :=
  let bytes := (content.drop place).take width
  LittleEndian.number (List.replicate (width - bytes.length) 0 ++ bytes.reverse)

def magic : Bytes := "SQLite format 3".toUTF8.toList ++ [0]

def pageSize (content : Bytes) : Nat := 256 * number content 16 1 + 65536 * number content 17 1

def isPageSize (size : Nat) : Bool := [512, 1024, 2048, 4096, 8192, 16384, 32768, 65536].contains size

/-- Bytes at the end of each page are kept free. -/
def usableSize (content : Bytes) : Nat := pageSize content - number content 20 1

/-- The version that is needed to read the file, and three fixed fractions. -/
def isReadable (content : Bytes) : Bool :=
  number content 19 1 ≤ 2 && number content 21 3 == 0x402020

/-- The number of pages counts unless an older program wrote to the file last. -/
def hasAllPages (content : Bytes) : Bool :=
  let pages := number content 28 4
  let size := pageSize content
  pages * size < content.length + size || number content 24 4 != number content 92 4

/-- Whether the first page is a leaf without cells. -/
def hasNoTables (content : Bytes) : Bool :=
  number content 100 1 == 13 && number content 103 2 == 0

/-- Whether no room is taken on the first page, and no pages are free. -/
def hasRoom (content : Bytes) : Bool :=
  number content 101 2 == 0 && number content 105 2 == usableSize content % 65536 &&
    number content 36 4 == 0

/-- Why tables cannot be made in a file, if they cannot. -/
def defect? (content : Bytes) : Option DatabaseError :=
  if !magic.isPrefixOf content || !isReadable content || !isPageSize (pageSize content) then
    some .notADatabase
  else if !hasAllPages content then some .malformed
  else if usableSize content < 480 then some .notADatabase
  else if 4 < number content 44 4 then some .unsupportedFormat
  else if !hasNoTables content then some .malformed
  else if 2 < number content 18 1 then some .readOnly
  else if !hasRoom content then some .malformed
  else none

end TierVault.DatabaseHeader

/-! ## Connections -/

namespace TierVault

structure Connection where
  /-- The file; none if the database lives in memory. -/
  place? : Option Path
  writable : Bool
  /-- The rows of a database in memory. -/
  unfiled : Rows

namespace Connection

abbrev Opening := EStateM DatabaseError FileSystem

/-! ## The file -/

/-- Paths of databases are no longer than this, in bytes, and neither are those of companions. -/
def pathLimit : Nat := 512

def companionLength : Nat := 8

def pathLength (path : Path) : Nat := (FileSystem.nameOf path).utf8ByteSize

/-- Adds a piece to the path of a database. Something other than a directory on the way is noticed, but
what is missing is not. -/
def extend (files : FileSystem) (path : Path) (piece : String) : Except DatabaseError Path :=
  if FileName.isIdle piece then .ok path
  else if piece = ".." then .ok path.dropLast
  else
    let next := path ++ [piece]
    if pathLimit ≤ pathLength next then .error .unopened
    else match files.follow [] next with
      | .ok _ | .error .notFound => .ok next
      | .error _ => .error .unopened

/-- The path of a database. Two dots take back the piece before them. -/
def pathOf (files : FileSystem) (name : String) : Except DatabaseError Path := do
  let first := if FileName.isAbsolute name then [] else files.workingDirectory
  let path ← (FileName.pieces name).foldlM (extend files) (← first.foldlM (extend files) [])
  if path = [] || pathLimit < pathLength path + companionLength then throw .unopened
  return path

/-- Makes the file if that is asked for, and tells what stands at the path. -/
def openFile (path : Path) (access : DatabaseAccess) : Opening Node := do
  let files ← get
  match files.node? path with
  | some .directory => throw (if access = .readOnly then .unreadable else .unopened)
  | some node => return node
  | none =>
    if access ≠ .create || !files.isDirectory path.dropLast then throw .unopened
    set (files.place path (.file []))
    return .file []

/-! ## Companions -/

/-- The path of the companion whose name ends like this. -/
def companion (path : Path) (ending : String) : Path :=
  path.dropLast ++ [path.getLast?.getD "" ++ ending]

def journalEnding : String := "-journal"

def logEnding : String := "-wal"

def logIndexEnding : String := "-shm"

def isEmptyNode (node : Node) : Bool := node.length?.any (· ≤ 1)

/-- Companions count as absent when they are empty. -/
def companion? (files : FileSystem) (path : Path) : Option Node :=
  (files.node? path).filter fun node => node.length? ≠ some 0

def discardFile (path : Path) : Opening Unit :=
  modify fun files => if files.isDirectory path then files else files.discard path

/-- A journal that begins with a zero was closed properly. -/
def isHot (journal : Node) : Bool :=
  (journal.content?.bind List.head?).any (· ≠ 0)

/-- Undoes what a journal tells, unless the database is empty. Either way the journal goes. -/
def settleJournal (path : Path) (node : Node) : Opening Unit := do
  let place := companion path journalEnding
  match companion? (← get) place with
  | none => return ()
  | some journal =>
    if isEmptyNode node then discardFile place
    else if journal.isDirectory then throw .companionUnreadable
    else if isHot journal then discardFile place

/-- What became of a log. -/
inductive LogState
  | absent
  | settled
  /-- The log cannot be read, and so nothing may be changed. -/
  | kept
  deriving DecidableEq

/-- The least length of a log that tells anything. -/
def logHeaderLength : Nat := 32

/-- Takes over what a log tells, unless the database is empty. Either way the log goes, except that it
stays if its index is a directory. -/
def settleLog (path : Path) (node : Node) : Opening LogState := do
  let place := companion path logEnding
  let index := companion path logIndexEnding
  match companion? (← get) place with
  | none => return .absent
  | some log =>
    if log.isDirectory then
      throw (if isEmptyNode node then .companionKept else .companionUnopened)
    if isEmptyNode node then
      discardFile place
      return .absent
    if (← get).isDirectory index then
      if log.length?.any (logHeaderLength ≤ ·) then throw .locked
      return .kept
    discardFile place
    discardFile index
    return .settled

/-! ## Tables -/

/-- Gives an empty database its tables. A journal is kept of it, unless there is a log. -/
def makeTables (path : Path) (writable : Bool) (log : LogState) : Opening Unit := do
  if !writable then throw .readOnly
  let journal := companion path journalEnding
  if log = .absent then
    if (← get).isDirectory journal then throw .companionUnopened
    discardFile journal
  modify fun files => files.place path (.database [])

/-- Opens the database of a name. -/
def openNamed (name : String) : Opening Connection := do
  let ofExcept {Result : Type} : Except DatabaseError Result → Opening Result
    | .ok result => pure result
    | .error error => throw error
  let name ← ofExcept (DatabaseName.parse name)
  match name.file? with
  | none =>
    if name.access = .readOnly then throw .readOnly
    return ⟨none, true, []⟩
  | some file =>
    let path ← ofExcept (pathOf (← get) file)
    let node ← openFile path name.access
    if !name.immutable then settleJournal path node
    let log ← if name.immutable then pure .absent else settleLog path node
    let writable := name.access ≠ .readOnly && !name.immutable && log ≠ .kept
    match node with
    | .database _ => return ⟨some path, writable, []⟩
    | node =>
      if !isEmptyNode node then
        if let some defect := DatabaseHeader.defect? (node.content?.getD []) then throw defect
      makeTables path writable log
      return ⟨some path, writable, []⟩

end Connection

end TierVault

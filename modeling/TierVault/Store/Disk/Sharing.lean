import TierVault.Store.Disk

/-!
A disk store that several calls use at once.

A lock guards the index, and nothing guards the files. A call goes from section to section: one holds the
lock, or is one call on files. Nothing else orders the sections of different calls, so those of others may
come between any two of one call.
-/

namespace TierVault

/-- A call on a shared store. -/
inductive DiskCall
  | get (key : String)
  | put (key : String) (value : Value)
  | delete (key : String)

inductive DiskAnswer
  | found (value? : Option Value)
  | stored
  | deleted (was : Bool)

/-- A write that has chosen who leaves for it. -/
structure DiskWrite where
  key : String
  value : Value
  size : Nat
  victims : List String

/-- Where a call stands, with what it knows. -/
inductive CallPlace
  /-- Before its first section. -/
  | starting (call : DiskCall)
  /-- A read has the record, and looks for the file. -/
  | looking (key : String) (record : DiskRecord)
  /-- A read saw no file, and drops the record. -/
  | dropping (key : String)
  | reading (key : String) (record : DiskRecord)
  | counting (key : String) (record : DiskRecord) (value : Value)
  /-- A write makes the directory. -/
  | preparing (write : DiskWrite)
  /-- A write begins its temporary file. -/
  | drafting (write : DiskWrite)
  /-- A write has created its temporary file, and fills it. -/
  | filling (write : DiskWrite) (table : Table)
  /-- A write looks at its temporary file. -/
  | measuring (write : DiskWrite) (written : WrittenPayload)
  /-- A write moves its payload into place. -/
  | placing (write : DiskWrite) (written : WrittenPayload)
  /-- A write has failed, and removes its temporary file. -/
  | abandoning (write : DiskWrite) (error : StoreError)
  | committing (write : DiskWrite) (written : WrittenPayload)
  /-- The file of a record that left the index goes, then the others. -/
  | removing (file : String) (others : List String) (answer : Except StoreError DiskAnswer)
  | done (answer : Except StoreError DiskAnswer)

namespace CallPlace

/-- The place of a call that has files left to remove. -/
def leaving (answer : Except StoreError DiskAnswer) : List String → CallPlace
  | [] => done answer
  | file :: others => removing file others answer

def isDone : CallPlace → Bool
  | done _ => true
  | _ => false

/-- An error that a section reports is what the call reports. -/
def landing : Except StoreError CallPlace → CallPlace
  | .ok next => next
  | .error error => done (.error error)

/-- A call on files failed. -/
def hasFailed : CallPlace → Bool
  | abandoning _ (.io _) | done (.error (.io _)) => true
  | _ => false

/-- A write that fails goes on to remove its temporary file. -/
def guarded (write : DiskWrite) (action : DiskAction CallPlace) : DiskAction CallPlace :=
  tryCatchThe StoreError action fun error => return abandoning write error

/-- One section of a call. -/
def advance (settings : DiskSettings) : CallPlace → DiskAction CallPlace
  | starting (.get key) => do
    match Keyed.find? key (← DiskStore.records) with
    | none => return done (.ok (.found none))
    | some record => return looking key record
  | looking key record => do
    if !(← getThe DiskWorld).files.has (FileName.join settings.root record.file) then
      return dropping key
    return reading key record
  | dropping key => do
    DiskStore.changeRecords (Keyed.remove key)
    DiskStore.markDirty
    return done (.ok (.found none))
  | reading key record => do
    let name := FileName.join settings.root record.file
    return counting key record (← DiskStore.readPayload settings name record.format)
  | counting key record value => do
    DiskStore.noteRead key record
    return done (.ok (.found (some value)))
  | starting (.put key value) => do
    let size ← .ofExcept .codec value.encodedSize
    if settings.budget < size then throw (.tooLarge size settings.budget)
    let victims ← .checked (DiskStore.victims settings.budget (← DiskStore.records) key size)
    return preparing ⟨key, value, size, victims⟩
  | preparing write => do
    DiskStore.onFiles (FileSystem.makeDirectories (DiskStore.directoryFor settings write.key))
    return drafting write
  | drafting write => guarded write do
    let draft := DiskStore.draftFor settings write.key
    match write.value.table?.filter fun table => settings.columnar && Columnar.supports table with
    | some table =>
      DiskStore.onFiles (FileSystem.writeFile draft [])
      return filling write table
    | none =>
      let (content, compressed) ← .ofExcept .codec (DiskStore.binaryContent settings write.value)
      DiskStore.onFiles (FileSystem.writeFile draft content)
      return measuring write ⟨.binary, compressed, content.length⟩
  | filling write table => guarded write do
    let level := if settings.compress then some settings.compressor.level else none
    let file ← .ofExcept .columnar (Columnar.write table level)
    DiskStore.onFiles (FileSystem.writeNode (DiskStore.draftFor settings write.key) (.columnar file))
    return measuring write ⟨.columnar, settings.compress, file.length⟩
  | measuring write written => return placing write written
  | placing write written => guarded write do
    DiskStore.onFiles (FileSystem.rename (DiskStore.draftFor settings write.key)
      (DiskStore.nameFor settings write.key))
    return committing write written
  | abandoning write error => do
    .attempt (DiskStore.onFiles (FileSystem.removeFile (DiskStore.draftFor settings write.key)))
    throw error
  | committing write written => do
    let files ← DiskStore.commit write.key write.size write.victims written
    let persisted ← ExceptT.lift (DiskStore.persist settings).run
    return leaving (persisted.map fun _ => .stored) files
  | starting (.delete key) => do
    match Keyed.find? key (← DiskStore.records) with
    | none => return done (.ok (.deleted false))
    | some record =>
      DiskStore.changeRecords (Keyed.remove key)
      DiskStore.markDirty
      DiskStore.persist settings
      return removing record.file [] (.ok (.deleted true))
  | removing file others answer => do
    DiskStore.removeFileOf settings file
    return leaving answer others
  | done answer => return done answer

/-- The temporary file that the section goes back to. When another call has moved it away, the look at it
fails. A call that was filling it then fills a file of another name; its look fails too, unless a third call
has begun the file again, and then there are more moves to come than such files. -/
def draft? (settings : DiskSettings) : CallPlace → Option String
  | filling write _ | measuring write _ => some (DiskStore.draftFor settings write.key)
  | _ => none

end CallPlace

/-- A value under a key, in a format. -/
structure StoredValue where
  value : Value
  format : PayloadFormat

/-- What a section did to a record or to a payload file. -/
inductive DiskEvent
  /-- The payload was moved into place. -/
  | placed (key : String) (stored : StoredValue)
  | erased (file : String)
  /-- The record of the write came into the index. -/
  | committed (key : String) (stored : StoredValue)
  /-- The record left the index: it was deleted or evicted, or a read dropped it. -/
  | withdrawn (key : String)

/-- What the section does to records and payload files, the last first. -/
def CallPlace.events (records : Keyed String DiskRecord) : CallPlace → List DiskEvent
  | placing write written => [.placed write.key ⟨write.value, written.format⟩]
  | committing write written =>
    .committed write.key ⟨write.value, written.format⟩ :: write.victims.map .withdrawn
  | starting (.delete key) => if Keyed.has key records then [.withdrawn key] else []
  | dropping key => [.withdrawn key]
  | removing file _ _ => [.erased file]
  | _ => []

/-- A store and the calls on it. -/
structure SharedDisk where
  world : DiskWorld
  calls : List CallPlace
  /-- What happened to records and payload files, the last first. -/
  history : List DiskEvent

namespace SharedDisk

def start (world : DiskWorld) (calls : List DiskCall) : SharedDisk :=
  ⟨world, calls.map .starting, []⟩

/-- One section of a call, if the call has one and its calls on files succeed. -/
def step (settings : DiskSettings) (shared : SharedDisk) (call : Nat) : Option SharedDisk := do
  let place ← shared.calls[call]?
  if place.isDone || (place.draft? settings).any fun draft => !shared.world.files.has draft then none
  match (place.advance settings).run shared.world with
  | .ok answer world =>
    let next := CallPlace.landing answer
    if next.hasFailed then none
    else some ⟨world, shared.calls.set call next,
      place.events shared.world.book.index.records ++ shared.history⟩
  | .error _ _ => none

/-- The store after sections of these calls, one after the other. -/
def run (settings : DiskSettings) (shared : SharedDisk) (moves : List Nat) : Option SharedDisk :=
  moves.foldlM (step settings) shared

/-- Every call has returned. -/
def Returned (shared : SharedDisk) : Prop := ∀ place ∈ shared.calls, place.isDone = true

/-- The value whose record is in the index, if one is: the record of the last commit, unless it left
since. -/
def recorded (before : String → Option StoredValue) (key : String) : List DiskEvent → Option StoredValue
  | [] => before key
  | .committed other stored :: earlier =>
    if other = key then some stored else recorded before key earlier
  | .withdrawn other :: earlier => if other = key then none else recorded before key earlier
  | .placed .. :: earlier | .erased _ :: earlier => recorded before key earlier

/-- The value whose payload is in the file of the key, if one is: the payload placed last, unless the
file went since. -/
def filed (before : String → Option StoredValue) (key : String) : List DiskEvent → Option StoredValue
  | [] => before key
  | .placed other stored :: earlier => if other = key then some stored else filed before key earlier
  | .erased file :: earlier =>
    if file = DiskStore.fileFor key then none else filed before key earlier
  | .committed .. :: earlier | .withdrawn _ :: earlier => filed before key earlier

end SharedDisk

end TierVault

import TierVault.Store.Basic
import TierVault.Store.Database.Connection

/-!
A store in the rows of a database.

Rows stand in the order of their last use. A read counts as a use even if the payload turns out to be
unreadable. Payloads may be compressed; a row tells whether its payload is.
-/

namespace TierVault

structure DatabaseSettings where
  directory : String
  budget : Nat
  compressor : Compressor
  /-- Whether new payloads are compressed. -/
  compress : Bool

def DatabaseSettings.name (settings : DatabaseSettings) : String :=
  FileName.join settings.directory "cache.db"

/-- An open database, and the files that it may lie in. -/
structure DatabaseWorld where
  connection : Connection
  files : FileSystem

abbrev DatabaseAction (Result : Type) := StoreAction DatabaseWorld Result

namespace DatabaseStore

/-- The rows of the database at a path; none if there is no database. -/
def rowsIn (files : FileSystem) (path : Path) : Rows :=
  match files.node? path with
  | some (.database rows) => rows
  | _ => []

def rowsOf (world : DatabaseWorld) : Rows :=
  match world.connection.place? with
  | some path => rowsIn world.files path
  | none => world.connection.unfiled

def setRows (world : DatabaseWorld) (rows : Rows) : DatabaseWorld :=
  match world.connection.place? with
  | some path => { world with files := world.files.place path (.database rows) }
  | none => { world with connection := { world.connection with unfiled := rows } }

def rows : DatabaseAction Rows := return rowsOf (← getThe DatabaseWorld)

/-- Changes the rows of the database. -/
def update (change : Rows → Rows) : DatabaseAction Unit := do
  let world ← getThe DatabaseWorld
  if !world.connection.writable then throw (.database .readOnly)
  set (setRows world (change (rowsOf world)))

/-- Opens the database of a directory, which is made if it is missing. -/
def openIn (settings : DatabaseSettings) : StoreAction FileSystem Connection := do
  .onFiles (FileSystem.makeDirectories settings.directory)
  fun files => match Connection.openNamed settings.name files with
    | .ok connection files => .ok (.ok connection) files
    | .error error files => .ok (.error (.database error)) files

/-- Without a compressor, unpacking is a matter of reading. -/
def readError : FrameDefect → IoError
  | .incomplete => .unexpectedEnd
  | .corrupt => .other

/-- The encoding that a row holds. -/
def content (settings : DatabaseSettings) (blob : Blob) : Except StoreError Bytes :=
  if !blob.compressed then .ok blob.payload
  else match settings.compressor.codec.unpack blob.payload with
    | .ok content => .ok content
    | .error defect =>
      .error (if settings.compress then .compression .decompress else .io (readError defect))

def get (settings : DatabaseSettings) (key : String) : DatabaseAction (Option Value) := do
  match RecencyList.find? key (← rows) with
  | none => return none
  | some row =>
    update (RecencyList.use key fun blob => { blob with accessCount := blob.accessCount + 1 })
    let content ← .ofExcept id (content settings row.item)
    let value ← .ofExcept .codec (Value.decode content)
    return some value

def put (settings : DatabaseSettings) (key : String) (value : Value) : DatabaseAction Unit := do
  let encoded ← .ofExcept .codec value.encode
  let size := encoded.length
  if settings.budget < size then throw (.tooLarge size settings.budget)
  let (payload, compressed) :=
    if settings.compress then settings.compressor.compressIfShorter encoded else (encoded, false)
  update (RecencyList.put settings.budget ⟨key, size, payload, compressed, 0⟩)

def delete (key : String) : DatabaseAction Bool := do
  let before ← rows
  update (RecencyList.remove key)
  return RecencyList.has key before

def store (settings : DatabaseSettings) : Store DatabaseWorld where
  name := "sqlite"
  budget := settings.budget
  get := get settings
  put := put settings
  has key := return RecencyList.has key (← rows)
  delete := delete
  clear := update fun _ => []
  size := return RecencyList.total (← rows)
  entries := return RecencyList.listing (← rows)

end DatabaseStore

end TierVault

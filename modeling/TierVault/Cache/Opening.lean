import TierVault.Cache.Operations
import TierVault.Config.Basic
import TierVault.Store.Database
import TierVault.Store.Disk
import TierVault.Store.Memory

/-!
A cache over the stores of a directory, from its opening to its end.

Opening either empties what an earlier run left, or makes entries for it. The end writes the indexes of
the file stores; what memory held is gone.
-/

namespace TierVault

/-! # Storage

The stores of the four tiers, below one directory: process memory, a database, and two directories of
payload files. All but the first outlive the cache that uses them.
-/

/-- What the four stores hold. -/
structure Storage where
  memory : MemoryWorld
  database : Connection
  columnar : DiskBook
  compressed : DiskBook
  files : FileSystem

structure StorageSettings where
  memoryBudget : Nat
  database : DatabaseSettings
  columnar : DiskSettings
  compressed : DiskSettings

namespace StorageSettings

def ofConfig (codec : FrameCodec) (config : Config) : StorageSettings where
  memoryBudget := config.tiers.capacity .memory
  database :=
    { directory := config.cache.databaseDirectory
      budget := config.tiers.capacity .sqlite
      compressor := ⟨codec, config.compression.level, config.compression.minimumBytes⟩
      compress := config.compression.database }
  columnar :=
    { root := config.cache.columnarDirectory
      budget := config.tiers.capacity .columnar
      columnar := config.tiers.columnarFiles
      compress := config.compression.columnarTier
      compressor := ⟨codec, config.compression.level, config.compression.minimumBytes⟩ }
  compressed :=
    { root := config.cache.compressedDirectory
      budget := config.tiers.capacity .compressed
      columnar := false
      compress := true
      compressor := ⟨codec, config.compression.level, config.compression.minimumBytes⟩ }

end StorageSettings

namespace Storage

def databasePart (storage : Storage) : DatabaseWorld := ⟨storage.database, storage.files⟩

def setDatabasePart (storage : Storage) (part : DatabaseWorld) : Storage :=
  { storage with database := part.connection, files := part.files }

def columnarPart (storage : Storage) : DiskWorld := ⟨storage.columnar, storage.files⟩

def setColumnarPart (storage : Storage) (part : DiskWorld) : Storage :=
  { storage with columnar := part.book, files := part.files }

def compressedPart (storage : Storage) : DiskWorld := ⟨storage.compressed, storage.files⟩

def setCompressedPart (storage : Storage) (part : DiskWorld) : Storage :=
  { storage with compressed := part.book, files := part.files }

def stores (settings : StorageSettings) : PerTier (Store Storage) where
  memory := (MemoryStore.store settings.memoryBudget).within memory
    fun storage memory => { storage with memory }
  sqlite := (DatabaseStore.store settings.database).within databasePart setDatabasePart
  columnar := (DiskStore.store settings.columnar).within columnarPart setColumnarPart
  compressed := (DiskStore.store settings.compressed).within compressedPart setCompressedPart

/-- Opens the stores that outlive a cache, from hot to cold; memory begins empty. -/
def openIn (settings : StorageSettings) : StoreAction FileSystem Storage := do
  let database ← DatabaseStore.openIn settings.database
  let columnar ← DiskStore.openIn settings.columnar
  let compressed ← DiskStore.openIn settings.compressed
  return { memory := [], database, columnar, compressed, files := ← getThe FileSystem }

def close (settings : StorageSettings) : StoreAction Storage Unit := do
  .within columnarPart setColumnarPart (DiskStore.close settings.columnar)
  .within compressedPart setCompressedPart (DiskStore.close settings.compressed)

end Storage

/-! # Opening -/

/-- A cache that is open, and what it was opened with. -/
structure OpenCache where
  storage : StorageSettings
  setup : CacheSetup Storage
  state : CacheState Storage

namespace TieredCache

/-- Empties every store; a store that fails is left as it is. -/
def clearStores {World : Type} (setup : CacheSetup World) : CacheAction World Unit :=
  Tier.all.forM fun tier => do
    let _ ← onStore setup tier (·.clear)

end TieredCache

namespace OpenCache

/-- Runs a cache operation. -/
def run {Result : Type} (action : CacheSetup Storage → CacheAction Storage Result) :
    Action OpenCache Result := fun cache =>
  match action cache.setup cache.state with
  | .ok result state => .ok result { cache with state }
  | .error fault state => .error fault { cache with state }

def files (cache : OpenCache) : FileSystem := cache.state.world.files

def setFiles (cache : OpenCache) (files : FileSystem) : OpenCache :=
  { cache with state := { cache.state with world := { cache.state.world with files } } }

/-- Opens the cache that the settings describe. -/
def openIn (codec : FrameCodec) (config : Config) (clock : Nat → Nat) :
    StoreAction FileSystem OpenCache := do
  let storage := StorageSettings.ofConfig codec config
  let setup := CacheSetup.ofConfig config (Storage.stores storage) clock
  let cache : OpenCache := ⟨storage, setup, .start setup (← Storage.openIn storage)⟩
  let first : Action OpenCache Unit :=
    if config.cache.clearOnOpen then run TieredCache.clearStores
    else do
      let _ ← run TieredCache.restore
  let cache ← .checked (match first cache with
    | .ok _ cache => .ok cache
    | .error fault _ => .error fault)
  set cache.files
  return cache

/-- Ends the cache, and tells the files it leaves behind. -/
def close (cache : OpenCache) : FileSystem :=
  match Storage.close cache.storage cache.state.world with
  | .ok _ storage | .error _ storage => storage.files

end OpenCache

end TierVault

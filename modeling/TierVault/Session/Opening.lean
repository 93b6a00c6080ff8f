import TierVault.Cache.Opening
import TierVault.Session.Execution

/-!
Opening a session in a directory: first its cache, then its memory manager, whose spill files lie in
the same directory.
-/

namespace TierVault

/-- What a session is given beside its settings. -/
structure SessionSources where
  codec : FrameCodec
  /-- The readings of the clock, in nanoseconds and in the order in which they are taken. -/
  clock : Nat → Nat
  /-- The readings of process memory, in the order in which they are taken. -/
  probe : Nat → MemoryReading
  /-- Tells keys and files of variables apart. -/
  identifier : Nat → String

/-- Why a session did not open. -/
inductive OpenFailure
  | directory (name : String) (error : IoError)
  | cache (error : StoreError)
  deriving DecidableEq

def OpenFailure.message : OpenFailure → String
  | directory name _ => "creating cache directory " ++ name
  | cache _ => "opening tiered cache"

namespace MemorySetup

def ofConfig (sources : SessionSources) (config : Config) : MemorySetup where
  config := config.memory
  directory := config.cache.spillDirectory
  compressor := ⟨sources.codec, config.compression.level, config.compression.minimumBytes⟩
  probe := sources.probe
  clock := sources.clock
  identifier := sources.identifier

end MemorySetup

/-- A session that is open, and what it was opened with. -/
structure OpenSession where
  storage : StorageSettings
  setup : SessionSetup Storage
  state : SessionState Storage

namespace OpenSession

/-- Opens the session that the settings describe. -/
def openIn (sources : SessionSources) (config : Config) :
    ExceptT OpenFailure (Action FileSystem) OpenSession := do
  let files ← getThe FileSystem
  match FileSystem.makeDirectories config.cache.directory files with
  | .error error files =>
    set files
    throw (.directory config.cache.directory error)
  | .ok _ files => set files
  match ← ExceptT.lift (OpenCache.openIn sources.codec config sources.clock).run with
  | .error error => throw (.cache error)
  | .ok cache =>
    let classifier ← ExceptT.lift (Action.ofExcept (Classifier.ofConfig config.session))
    let setup : SessionSetup Storage :=
      { cache := cache.setup
        memory := .ofConfig sources config
        classifier
        processor := .ofConfig config.stream
        skippedBeginnings := config.session.skippedBeginnings
        identifier := sources.identifier
        files := Storage.files
        setFiles := fun storage files => { storage with files }
        closeStores := fun storage =>
          match Storage.close cache.storage storage with
          | .ok _ storage | .error _ storage => storage }
    return ⟨cache.storage, setup, Session.start setup cache.state⟩

/-- Runs a step of the session. -/
def run {Result : Type} (action : SessionSetup Storage → SessionAction Storage Result) :
    Action OpenSession Result := fun session =>
  match action session.setup session.state with
  | .ok result state => .ok result { session with state }
  | .error fault state => .error fault { session with state }

def files (session : OpenSession) : FileSystem := session.state.cache.world.files

/-- The cache of the session by itself. -/
def cache (session : OpenSession) : OpenCache :=
  ⟨session.storage, session.setup.cache, session.state.cache⟩

def setCache (session : OpenSession) (cache : CacheState Storage) : OpenSession :=
  { session with state := { session.state with cache } }

end OpenSession

end TierVault

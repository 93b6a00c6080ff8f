import TierVault.Config.Basic
import TierVault.Duration
import TierVault.Keyed
import TierVault.Memory.Reading
import TierVault.Memory.Spill

/-!
The memory manager: when memory is under pressure, when to reclaim it, and which values lie in files.

A spilled value belongs to its owners. When the last owner lets it go, its file is removed; the record
of it stays until the next reclaim pass sweeps it. A reclaim pass sweeps first and then asks each
reclaimer to free what it can.
-/

namespace TierVault

/-- A value in a file. -/
structure Spill where
  /-- The variable that the value was taken from. -/
  name : String
  /-- The name of the file. -/
  path : String
  /-- The length of the file when it was written. -/
  size : Nat
  /-- Nanoseconds on the clock. -/
  createdAt : Nat
  owners : Nat
  deriving DecidableEq, Inhabited

def Spill.isAlive (spill : Spill) : Bool := 0 < spill.owners

inductive ReclaimReason
  | periodic
  | pressure
  | forced
  deriving DecidableEq, Inhabited

def ReclaimCounts.add (counts : ReclaimCounts) : ReclaimReason → ReclaimCounts
  | .periodic => { counts with periodic := counts.periodic + 1 }
  | .pressure => { counts with pressure := counts.pressure + 1 }
  | .forced => { counts with forced := counts.forced + 1 }

/-- What stays the same in the life of a memory manager. -/
structure MemorySetup where
  config : MemoryConfig
  /-- Where the spill files lie. -/
  directory : String
  compressor : Compressor
  /-- The readings of process memory, in the order in which they are taken. -/
  probe : Nat → MemoryReading
  /-- The readings of the clock, in nanoseconds and in the order in which they are taken. -/
  clock : Nat → Nat
  /-- Tells spill files apart. -/
  identifier : Nat → String

structure MemoryManager where
  /-- The statistics of the last checks, the oldest first. -/
  history : List MemoryStats
  counts : ReclaimCounts
  /-- When the last reclaim pass ended. -/
  lastReclaim : Nat
  /-- What all reclaim passes freed. -/
  reclaimedBytes : Nat
  /-- The spills that were not swept, under their numbers. -/
  spills : Keyed Nat Spill
  /-- The number of the next spill. -/
  nextSpill : Nat
  /-- How often memory was sampled. -/
  samples : Nat
  /-- How often the clock was read. -/
  readings : Nat

/-- A manager and the files it works on. -/
structure ManagedMemory where
  manager : MemoryManager
  files : FileSystem

abbrev MemoryAction (Result : Type) := Action ManagedMemory Result

namespace MemoryManager

/-- A manager that has spilled nothing yet. -/
def start (setup : MemorySetup) : MemoryManager where
  history := []
  counts := default
  lastReclaim := setup.clock 0
  reclaimedBytes := 0
  spills := []
  nextSpill := 0
  samples := 0
  readings := 1

def aliveSpills (manager : MemoryManager) : List Spill :=
  (manager.spills.map Prod.snd).filter Spill.isAlive

/-- Bytes in the files of the spills that are alive. -/
def spillBytes (manager : MemoryManager) : Nat := sumOf (manager.aliveSpills.map Spill.size)

def update (change : MemoryManager → MemoryManager) : MemoryAction Unit :=
  modify fun memory => { memory with manager := change memory.manager }

def readClock (setup : MemorySetup) : MemoryAction Nat := fun memory =>
  .ok (setup.clock memory.manager.readings)
    { memory with manager := { memory.manager with readings := memory.manager.readings + 1 } }

/-! ## Pressure -/

/-- Samples process memory. -/
def statistics (setup : MemorySetup) : MemoryAction MemoryStats := fun memory =>
  let manager := memory.manager
  .ok (.ofReading (setup.probe manager.samples) manager.counts)
    { memory with manager := { manager with samples := manager.samples + 1 } }

/-- More is resident than the spill threshold, or than the pressure ratio of the limit. -/
def isPressure (config : MemoryConfig) (statistics : MemoryStats) : Bool :=
  let resident := statistics.residentMegabytes
  resident.exceeds (.ofWord config.spillThresholdMegabytes) ||
    resident.exceeds ((Binary64.ofWord config.limitMegabytes).mul config.pressureRatio)

/-- Samples memory, notes the statistics and tells whether it is under pressure. -/
def checkPressure (setup : MemorySetup) : MemoryAction (Bool × MemoryStats) := do
  let current ← statistics setup
  update fun manager =>
    let history := manager.history ++ [current]
    { manager with history := history.drop (history.length - setup.config.historyLength) }
  return (isPressure setup.config current, current)

/-- Whether a value is to leave process memory: it is large, or memory is short. Values that are small
or cannot be stored stay. -/
def shouldSpill (setup : MemorySetup) (value : Value) : MemoryAction Bool := do
  let size := value.footprint
  if size < setup.config.spillFloorBytes || !value.isSerializable then return false
  let large ← Action.ofExcept (Word.product setup.config.objectThresholdMegabytes bytesPerMegabyte)
  if large < size then return true
  let (pressure, current) ← checkPressure setup
  let projected := current.residentMegabytes.add (MemoryStats.megabytes size)
  return projected.exceeds (.ofWord setup.config.spillThresholdMegabytes) || pressure

/-! ## Spilling -/

/-- Removes a file and tells whether that worked. -/
def removeFile (path : String) : MemoryAction Bool := fun memory =>
  match FileSystem.removeFile path memory.files with
  | .ok _ files => .ok true { memory with files }
  | .error _ files => .ok false { memory with files }

/-- Writes a value to a file of its own. Tells the number of the spill, which has one owner. -/
def spill (setup : MemorySetup) (name : String) (value : Value) : MemoryAction (Option Nat) := do
  let number := (← get).manager.nextSpill
  update fun manager => { manager with nextSpill := number + 1 }
  let file := SpillFile.nameFor name (setup.identifier number)
  let path := FileName.join setup.directory file
  let memory ← get
  match SpillFile.write setup.compressor setup.directory file value memory.files with
  | .error _ files =>
    set { memory with files }
    return none
  | .ok size files =>
    set { memory with files }
    let createdAt ← readClock setup
    let spill : Spill := { name, path, size, createdAt, owners := 1 }
    update fun manager => { manager with spills := Keyed.put number spill manager.spills }
    return some number

/-- Adds an owner to a spill that has one. -/
def share (number : Nat) : MemoryAction Bool := do
  match Keyed.find? number (← get).manager.spills with
  | some spill =>
    if spill.isAlive then
      let shared := { spill with owners := spill.owners + 1 }
      update fun manager => { manager with spills := Keyed.put number shared manager.spills }
      return true
    else return false
  | none => return false

/-- An owner lets a spill go. After the last one the file is removed, if it can be. -/
def release (number : Nat) : MemoryAction Unit := do
  match Keyed.find? number (← get).manager.spills with
  | some spill =>
    if spill.isAlive then
      let left := { spill with owners := spill.owners - 1 }
      update fun manager => { manager with spills := Keyed.put number left manager.spills }
      if !left.isAlive then
        let _ ← removeFile spill.path
  | none => return ()

/-- Reads the value of a spill. -/
def load (setup : MemorySetup) (number : Nat) : MemoryAction (Except SpillError Value) := do
  let memory ← get
  match Keyed.find? number memory.manager.spills with
  | none => return .error (.io .notFound)
  | some spill =>
    match SpillFile.read setup.compressor spill.path memory.files with
    | .ok value files =>
      set { memory with files }
      return .ok value
    | .error error files =>
      set { memory with files }
      return .error error

/-- The spill of a name that was created last; of several at one time, the one spilled last. -/
def latest? (name : String) (spills : Keyed Nat Spill) : Option (Nat × Spill) :=
  let later (best? : Option (Nat × Spill)) (other : Nat × Spill) : Option (Nat × Spill) :=
    match best? with
    | some best => if best.2.createdAt ≤ other.2.createdAt then some other else some best
    | none => some other
  (spills.filter fun (_, spill) => spill.name = name).foldl later none

/-- The value that was spilled last for a variable, as long as it has an owner. -/
def loadNamed (setup : MemorySetup) (name : String) : MemoryAction (Option Value) := do
  match latest? name (← get).manager.spills with
  | some (number, spill) =>
    if spill.isAlive then
      return (← load setup number).toOption
    else return none
  | none => return none

/-! ## Reclaiming -/

/-- Forgets the spills without owners and removes what is left of their files. Tells how many spills
and how many bytes of files there were. -/
def sweep : MemoryAction (Nat × Nat) := do
  let dead := (← get).manager.spills.filter fun (_, spill) => !spill.isAlive
  update fun manager =>
    { manager with spills := manager.spills.filter fun (_, spill) => spill.isAlive }
  let freed ← dead.mapM fun (_, spill) => do
    return if ← removeFile spill.path then spill.size else 0
  return (dead.length, sumOf freed)

/-- Enters a reclaim pass into the books. -/
def noteReclaim (setup : MemorySetup) (reason : ReclaimReason) (freed : Nat) :
    MemoryAction Unit := do
  update fun manager => { manager with counts := manager.counts.add reason }
  let now ← readClock setup
  update fun manager => { manager with lastReclaim := now }
  let reclaimedBytes ← Action.ofExcept (Word.sum (← get).manager.reclaimedBytes freed)
  update fun manager => { manager with reclaimedBytes }

/-- Why a reclaim pass is due, if it is. -/
def dueReason (setup : MemorySetup) (forced : Bool) : MemoryAction (Option ReclaimReason) := do
  let (pressure, current) ← checkPressure setup
  let elapsed := (← readClock setup) - (← get).manager.lastReclaim
  let due := Duration.ofSeconds setup.config.reclaimIntervalSeconds ≤ elapsed
  let large := current.residentMegabytes.exceeds (.ofWord setup.config.reclaimThresholdMegabytes)
  return if forced then some .forced
    else if pressure then some .pressure
    else if due || large then some .periodic
    else none

/-! The passes run in a world of which the managed memory may be a part; `inMemory` lets the manager
act there. -/

section Passes

variable {World : Type} (inMemory : {Result : Type} → MemoryAction Result → Action World Result)

/-- A reclaim pass. Tells how many bytes it freed. -/
def reclaim (setup : MemorySetup) (reclaimers : List (Action World Nat)) (reason : ReclaimReason) :
    Action World Nat := do
  let (_, swept) ← inMemory sweep
  let freed ← reclaimers.foldlM (fun freed reclaimer => do
    let released ← reclaimer
    Action.ofExcept (Word.sum freed released)) swept
  inMemory (noteReclaim setup reason freed)
  return freed

/-- Runs a reclaim pass if one is due, and tells whether it did. -/
def reclaimIfNeeded (setup : MemorySetup) (reclaimers : List (Action World Nat)) (forced : Bool) :
    Action World Bool := do
  match ← inMemory (dueReason setup forced) with
  | none => return false
  | some reason =>
    let _ ← reclaim inMemory setup reclaimers reason
    let _ ← inMemory (statistics setup)
    return true

/-- What an optimization did. -/
structure Optimization where
  sweptSpills : Nat
  spillBytesFreed : Nat
  reclaimedBytes : Nat
  residentBefore : Binary64
  residentAfter : Binary64

/-- Sweeps and reclaims at once. -/
def optimize (setup : MemorySetup) (reclaimers : List (Action World Nat)) :
    Action World Optimization := do
  let before ← inMemory (statistics setup)
  let (sweptSpills, spillBytesFreed) ← inMemory sweep
  let reclaimedBytes ← reclaim inMemory setup reclaimers .forced
  let after ← inMemory (statistics setup)
  return {
    sweptSpills, spillBytesFreed, reclaimedBytes
    residentBefore := before.residentMegabytes
    residentAfter := after.residentMegabytes }

end Passes

end MemoryManager

end TierVault

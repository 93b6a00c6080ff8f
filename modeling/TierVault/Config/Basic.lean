import TierVault.Binary64
import TierVault.FileName
import TierVault.Tier

/-!
Settings of the cache, the memory manager, streams and sessions, with their defaults.
-/

namespace TierVault

namespace Amount

def megabyte : Nat := 1024 * 1024

def gigabyte : Nat := 1024 * megabyte

end Amount

open Amount

/-- Where a cache lives and how long its entries do. -/
structure CacheConfig where
  directory : String := "/tmp/session-cache"
  /-- Opening the cache empties what an earlier run left. -/
  clearOnOpen : Bool := true
  /-- The lifetime of entries that are stored without one. -/
  defaultLifetimeSeconds? : Option Nat := none
  deriving DecidableEq, Inhabited

/-- How much each tier holds and which sizes begin where. -/
structure TierConfig where
  budgets : PerTier Nat := ⟨2 * gigabyte, 10 * gigabyte, 50 * gigabyte, 200 * gigabyte⟩
  /-- Smaller values begin in memory. -/
  memoryLimit : Nat := 10 * megabyte
  /-- Smaller values, if too large for memory, begin in the database. -/
  sqliteLimit : Nat := 100 * megabyte
  /-- Smaller values, if too large for both, begin in columnar files. -/
  columnarLimit : Nat := 1000 * megabyte
  /-- Reads per second above which an entry moves one tier up. -/
  promotionThreshold : Binary64 := ⟨0x4024000000000000⟩
  /-- Tables in the columnar tier are written as columnar files. -/
  columnarFiles : Bool := true
  deriving Inhabited

structure CompressionConfig where
  /-- Payloads in the database are compressed. -/
  database : Bool := true
  /-- Payloads in the columnar tier are compressed. -/
  columnarTier : Bool := false
  level : Int := 3
  /-- Shorter payloads are stored raw. -/
  minimumBytes : Nat := 1024
  deriving DecidableEq, Inhabited

structure MemoryConfig where
  limitMegabytes : Nat := 2048
  /-- Resident memory above which large values are offloaded. -/
  spillThresholdMegabytes : Nat := 1024
  /-- Resident memory above which a reclaim pass runs. -/
  reclaimThresholdMegabytes : Nat := 512
  reclaimIntervalSeconds : Nat := 60
  /-- Larger values are always offloaded. -/
  objectThresholdMegabytes : Nat := 100
  /-- Smaller values are never offloaded. -/
  spillFloorBytes : Nat := megabyte
  /-- The part of the limit above which memory is under pressure. -/
  pressureRatio : Binary64 := ⟨0x3FE8000000000000⟩
  /-- How many readings are remembered. -/
  historyLength : Nat := 100
  deriving DecidableEq, Inhabited

structure StreamConfig where
  chunkSize : Nat := 10000
  /-- Items that a producer may be ahead of its consumer. -/
  bufferSize : Nat := 100
  pollMilliseconds : Nat := 1
  workers : Nat := 4
  /-- Items handed to a worker at once. -/
  parallelBatchSize : Nat := 1000
  deriving DecidableEq, Inhabited

structure SessionConfig where
  /-- Code that mentions one of these runs in streaming mode. -/
  streamingKeywords : List String :=
    ["stream", "chunk", "chunksize", "read_lines", "iterrows", "itertuples", "for line in",
      "readlines", "scan_csv", "scan_parquet"]
  /-- So does code that names a file larger than this. -/
  streamingFileMegabytes : Nat := 100
  /-- Variables whose names begin with one of these are never offloaded. -/
  skippedBeginnings : List String := ["_"]
  deriving DecidableEq, Inhabited

structure Config where
  cache : CacheConfig := {}
  tiers : TierConfig := {}
  compression : CompressionConfig := {}
  memory : MemoryConfig := {}
  stream : StreamConfig := {}
  session : SessionConfig := {}
  deriving Inhabited

namespace TierConfig

def capacity (config : TierConfig) (tier : Tier) : Nat := config.budgets.get tier

/-- The tier where a value of `size` bytes begins. -/
def tierForSize (config : TierConfig) (size : Nat) : Tier :=
  if size < config.memoryLimit then .memory
  else if size < config.sqliteLimit then .sqlite
  else if size < config.columnarLimit then .columnar
  else .compressed

end TierConfig

namespace CacheConfig

def databaseDirectory (config : CacheConfig) : String := config.directory

def columnarDirectory (config : CacheConfig) : String := FileName.join config.directory "parquet"

def compressedDirectory (config : CacheConfig) : String := FileName.join config.directory "compressed"

def spillDirectory (config : CacheConfig) : String := FileName.join config.directory "spill"

end CacheConfig

end TierVault

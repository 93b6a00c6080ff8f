import TierVault.Binary64
import TierVault.Config.Basic
import TierVault.Entry
import TierVault.Keyed
import TierVault.Metrics
import TierVault.Store.Basic
import TierVault.Tier

/-!
What a tiered cache knows, and the steps that its operations are made of.

The cache keeps an entry for each key and lets the store of the entry's tier keep the value. How many
entries and bytes a tier holds is counted beside the entries; entries come, go and move only by
`insertEntry`, `dropEntry` and `moveEntry`, which keep the counts in step. Store errors are answers here:
no operation of a cache passes them on.
-/

/-! ## How full a tier is -/

namespace TierVault

structure TierUsage where
  entries : Nat
  /-- Encoded bytes of the entries. -/
  bytes : Nat
  capacity : Nat
  deriving DecidableEq, Inhabited

namespace TierUsage

def ofCapacity (capacity : Nat) : TierUsage := ⟨0, 0, capacity⟩

def fraction (usage : TierUsage) : Binary64 :=
  if usage.capacity = 0 then Binary64.zero
  else (Binary64.ofWord usage.bytes).div (Binary64.ofWord usage.capacity)

/-- Nothing is left of a tier that is over its capacity. -/
def available (usage : TierUsage) : Nat := usage.capacity - usage.bytes

end TierUsage

/-! ## Setup and state -/

/-- What becomes of a count from which more is taken than it holds. -/
inductive Shortfall
  /-- It is zero. -/
  | clamp
  /-- There is no such count: a fault stops the cache. -/
  | stop
  deriving DecidableEq, Inhabited

def Shortfall.takeAway : Shortfall → (held amount : Nat) → Except Fault Nat
  | clamp, held, amount => .ok (held - amount)
  | stop, held, amount => Word.difference held amount

/-- What stays the same in the life of a cache. -/
structure CacheSetup (World : Type) where
  tiers : TierConfig
  /-- The lifetime, in nanoseconds, of entries that are stored without one. -/
  defaultLifetime? : Option Nat
  stores : PerTier (Store World)
  /-- The readings of the clock, in nanoseconds and in the order in which they are taken. -/
  clock : Nat → Nat
  shortfall : Shortfall := .clamp

def CacheSetup.ofConfig {World : Type} (config : Config) (stores : PerTier (Store World))
    (clock : Nat → Nat) : CacheSetup World where
  tiers := config.tiers
  defaultLifetime? := config.cache.defaultLifetimeSeconds?.map Duration.ofSeconds
  stores := stores
  clock := clock

/-- How often each thing happened. -/
structure Counters where
  hits : Nat
  misses : Nat
  evictions : Nat
  promotions : Nat
  demotions : Nat
  expirations : Nat
  writeFailures : Nat
  deriving DecidableEq, Inhabited

structure CacheState (World : Type) where
  entries : Keyed String Entry
  usage : PerTier TierUsage
  counters : Counters
  metrics : Metrics
  /-- Numbers the accesses. -/
  tick : Nat
  /-- How often the clock was read. -/
  readings : Nat
  world : World

abbrev CacheAction (World Result : Type) := Action (CacheState World) Result

namespace CacheState

variable {World : Type}

/-- A cache without entries over stores that are as `world` tells. -/
def start (setup : CacheSetup World) (world : World) : CacheState World where
  entries := []
  usage := .ofFunction fun tier => .ofCapacity (setup.tiers.capacity tier)
  counters := default
  metrics := .empty
  tick := 0
  readings := 0
  world := world

def lookup (state : CacheState World) (key : String) : Option Entry :=
  Keyed.find? key state.entries

def entryList (state : CacheState World) : List Entry := state.entries.map Prod.snd

end CacheState

namespace TieredCache

variable {World : Type}

/-! ## Steps -/

/-- Reads the clock. -/
def readClock (setup : CacheSetup World) : CacheAction World Nat := fun state =>
  .ok (setup.clock state.readings) { state with readings := state.readings + 1 }

def nextTick : CacheAction World Nat := fun state =>
  .ok (state.tick + 1) { state with tick := state.tick + 1 }

def lookup (key : String) : CacheAction World (Option Entry) :=
  return (← get).lookup key

def count (change : Counters → Counters) : CacheAction World Unit :=
  modify fun state => { state with counters := change state.counters }

/-- Counts an operation and its outcome in the metrics. -/
def record (operation outcome : String) : CacheAction World Unit :=
  modify fun state => { state with metrics := state.metrics.record operation outcome }

/-- A call of a tier's store. -/
def onStore {Result : Type} (setup : CacheSetup World) (tier : Tier)
    (call : Store World → StoreAction World Result) :
    CacheAction World (Except StoreError Result) := fun state =>
  match (call (setup.stores.get tier)).run state.world with
  | .ok result world => .ok result { state with world }
  | .error fault world => .error fault { state with world }

/-- Deletes a payload. Where that fails, the payload stays behind. -/
def discardPayload (setup : CacheSetup World) (tier : Tier) (key : String) :
    CacheAction World Unit := do
  let _ ← onStore setup tier (·.delete key)

/-- Sets the counts of a tier, and its gauges with them. -/
def setUsage (tier : Tier) (usage : TierUsage) : CacheAction World Unit :=
  modify fun state =>
    { state with
      usage := state.usage.set tier usage
      metrics := state.metrics.setTier tier usage.entries usage.bytes }

/-- Counts an entry of `size` bytes in. -/
def accountAdd (tier : Tier) (size : Nat) : CacheAction World Unit := do
  let usage := (← get).usage.get tier
  let bytes ← Action.ofExcept (Word.sum usage.bytes size)
  setUsage tier { usage with entries := usage.entries + 1, bytes }

/-- Counts an entry of `size` bytes out. -/
def accountRemove (setup : CacheSetup World) (tier : Tier) (size : Nat) :
    CacheAction World Unit := do
  let usage := (← get).usage.get tier
  let entries ← Action.ofExcept (setup.shortfall.takeAway usage.entries 1)
  let bytes ← Action.ofExcept (setup.shortfall.takeAway usage.bytes size)
  setUsage tier { usage with entries, bytes }

def changeEntries (change : Keyed String Entry → Keyed String Entry) : CacheAction World Unit :=
  modify fun state => { state with entries := change state.entries }

/-! ## Entries come, go and move -/

/-- A new entry, created now. -/
def insertEntry (setup : CacheSetup World) (key : String) (size : Nat) (tier : Tier)
    (lifetime? : Option Nat) : CacheAction World Unit := do
  let tick ← nextTick
  let now ← readClock setup
  changeEntries (Keyed.put key (.create key size tier lifetime? tick now))
  accountAdd tier size

/-- Forgets an entry; its payload is not touched. -/
def dropEntry (setup : CacheSetup World) (key : String) : CacheAction World (Option Entry) := do
  match ← lookup key with
  | none => return none
  | some entry =>
    changeEntries (Keyed.remove key)
    accountRemove setup entry.tier entry.size
    return some entry

/-- Forgets an entry and deletes its payload. -/
def removeEntry (setup : CacheSetup World) (key : String) : CacheAction World Bool := do
  match ← dropEntry setup key with
  | none => return false
  | some entry =>
    discardPayload setup entry.tier key
    return true

/-- The books of a value that was copied from one tier to another: the old copy is deleted. -/
def moveEntry (setup : CacheSetup World) (key : String) (source target : Tier) (size : Nat) :
    CacheAction World Unit := do
  discardPayload setup source key
  accountRemove setup source size
  accountAdd target size
  match ← lookup key with
  | some entry => changeEntries (Keyed.put key { entry with tier := target })
  | none => return ()

/-- Notes a read of an entry, and tells its reads per second as of `now`. -/
def touchEntry (setup : CacheSetup World) (key : String) (now : Nat) :
    CacheAction World Binary64 := do
  let tick ← nextTick
  match ← lookup key with
  | none => return Binary64.zero
  | some entry =>
    let touched := entry.touch tick (← readClock setup)
    changeEntries (Keyed.put key touched)
    return touched.accessFrequency now

end TieredCache

end TierVault

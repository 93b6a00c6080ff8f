import TierVault.Json.Writer
import TierVault.Memory.Manager

/-!
What a memory manager tells about itself.
-/

namespace TierVault

structure SpillSummary where
  name : String
  path : String
  size : Nat
  isAlive : Bool
  deriving DecidableEq, Inhabited

structure MemoryReport where
  current : MemoryStats
  /-- When `current` was sampled, in nanoseconds. -/
  takenAt : Nat
  underPressure : Bool
  config : MemoryConfig
  nanosecondsSinceReclaim : Nat
  reclaimedBytes : Nat
  spills : List SpillSummary
  /-- Bytes in the files of the spills that are alive. -/
  spillBytes : Nat
  averageResident? : Option Binary64
  historyLength : Nat

namespace MemoryReport

def average? (history : List MemoryStats) : Option Binary64 :=
  if history.isEmpty then none
  else
    let total := (history.map MemoryStats.residentMegabytes).foldl Binary64.add Binary64.zero
    some (total.div (.ofWord history.length))

/-- Samples memory and reports on it and on the spills. -/
def take (setup : MemorySetup) : MemoryAction MemoryReport := do
  let current ← MemoryManager.statistics setup
  let now ← MemoryManager.readClock setup
  let manager := (← get).manager
  return {
    current
    takenAt := now
    underPressure := MemoryManager.isPressure setup.config current
    config := setup.config
    nanosecondsSinceReclaim := now - manager.lastReclaim
    reclaimedBytes := manager.reclaimedBytes
    spills := manager.spills.map fun (_, spill) =>
      ⟨spill.name, spill.path, spill.size, spill.isAlive⟩
    spillBytes := manager.spillBytes
    averageResident? := average? manager.history
    historyLength := manager.history.length }

open Json.Document

def countsDocument (counts : ReclaimCounts) : Json.Document :=
  list [integer counts.periodic, integer counts.pressure, integer counts.forced]

def statisticsDocument (statistics : MemoryStats) (takenAt : Nat) : Json.Document :=
  object
    [("rss_mb", float statistics.residentMegabytes),
      ("vms_mb", float statistics.reservedMegabytes),
      ("percent", float statistics.percent),
      ("available_mb", float statistics.availableMegabytes),
      ("gc_counts", countsDocument statistics.counts),
      ("timestamp",
        object
          [("secs_since_epoch", integer (takenAt / Duration.nanosecondsPerSecond : Nat)),
            ("nanos_since_epoch", integer (takenAt % Duration.nanosecondsPerSecond : Nat))])]

def limitsDocument (config : MemoryConfig) : Json.Document :=
  object
    [("memory_limit_mb", integer config.limitMegabytes),
      ("spill_threshold_mb", integer config.spillThresholdMegabytes),
      ("gc_threshold_mb", integer config.reclaimThresholdMegabytes),
      ("object_size_threshold_mb", integer config.objectThresholdMegabytes)]

def spillDocument (spill : SpillSummary) : Json.Document :=
  object
    [("name", string spill.name),
      ("path", string spill.path),
      ("size_bytes", integer spill.size),
      ("alive", truth spill.isAlive)]

def document (report : MemoryReport) : Json.Document :=
  object
    [("current", statisticsDocument report.current report.takenAt),
      ("under_pressure", truth report.underPressure),
      ("limits", limitsDocument report.config),
      ("gc",
        object
          [("counts", countsDocument report.current.counts),
            ("seconds_since_last", float (Duration.inSeconds report.nanosecondsSinceReclaim)),
            ("interval_secs", integer report.config.reclaimIntervalSeconds),
            ("reclaimed_bytes_total", integer report.reclaimedBytes)]),
      ("spills", list (report.spills.map spillDocument)),
      ("spill_bytes", integer report.spillBytes),
      ("average_rss_mb",
        match report.averageResident? with
        | some average => float average
        | none => null),
      ("history_len", integer report.historyLength)]

end MemoryReport

end TierVault

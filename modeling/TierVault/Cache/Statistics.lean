import TierVault.Cache.State
import TierVault.Json.Writer

/-!
What a cache tells about itself.
-/

namespace TierVault

/-- Hits among all reads; 0 before the first read. -/
def Counters.hitRate (counters : Counters) : Binary64 :=
  let reads := counters.hits + counters.misses
  if reads = 0 then Binary64.zero
  else (Binary64.ofWord counters.hits).div (Binary64.ofWord reads)

structure CacheStatistics where
  totalEntries : Nat
  usage : PerTier TierUsage
  hitRate : Binary64
  counters : Counters

namespace CacheStatistics

def ofState {World : Type} (state : CacheState World) : CacheStatistics where
  totalEntries := state.entries.length
  usage := state.usage
  hitRate := state.counters.hitRate
  counters := state.counters

/-- A number for each tier, under the tier's level. -/
def byLevel (usage : PerTier TierUsage) (number : TierUsage → Nat) : Json.Document :=
  .object (usage.toList.map fun (tier, usage) => (toString tier.level, .integer (number usage)))

open Json.Document in
def document (statistics : CacheStatistics) : Json.Document :=
  let counters := statistics.counters
  object
    [("total_entries", integer statistics.totalEntries),
      ("tier_counts", byLevel statistics.usage TierUsage.entries),
      ("tier_bytes", byLevel statistics.usage TierUsage.bytes),
      ("tier_capacity", byLevel statistics.usage TierUsage.capacity),
      ("hit_rate", float statistics.hitRate),
      ("hits", integer counters.hits),
      ("misses", integer counters.misses),
      ("evictions", integer counters.evictions),
      ("promotions", integer counters.promotions),
      ("demotions", integer counters.demotions),
      ("expirations", integer counters.expirations),
      ("write_failures", integer counters.writeFailures)]

end CacheStatistics

end TierVault

import TierVault.Duration
import TierVault.Tier

/-!
What is known of one stored value: where it lies, how large it is, when it was read.

Times are nanoseconds on a clock that never runs backwards. Two accesses may fall on one reading of
it; the tick, which counts accesses, then tells them apart.
-/

namespace TierVault

structure Entry where
  key : String
  /-- The length of the value's encoding, which the tier's budget counts. -/
  size : Nat
  tier : Tier
  /-- Successful reads. -/
  accessCount : Nat
  /-- Creation counts as an access. -/
  lastAccess : Nat
  accessTick : Nat
  createdAt : Nat
  /-- Nanoseconds from creation after which the entry is expired. -/
  lifetime? : Option Nat
  deriving DecidableEq, Inhabited

namespace Entry

def create (key : String) (size : Nat) (tier : Tier) (lifetime? : Option Nat) (tick now : Nat) :
    Entry :=
  { key, size, tier, accessCount := 0, lastAccess := now, accessTick := tick, createdAt := now,
    lifetime? }

def touch (entry : Entry) (tick now : Nat) : Entry :=
  { entry with lastAccess := now, accessTick := tick, accessCount := entry.accessCount + 1 }

def isExpired (entry : Entry) (now : Nat) : Bool :=
  match entry.lifetime? with
  | some lifetime => lifetime ≤ now - entry.createdAt
  | none => false

/-- Reads per second since creation. An age below one second counts as one second, so that a fresh
entry is not moved on its first read. -/
def accessFrequency (entry : Entry) (now : Nat) : Binary64 :=
  (Binary64.ofWord entry.accessCount).div
    ((Duration.inSeconds (now - entry.createdAt)).maximum Binary64.one)

end Entry

end TierVault

import TierVault.Binary64

/-!
Lengths of time, in nanoseconds.
-/

namespace TierVault.Duration

def nanosecondsPerSecond : Nat := 1000000000

def ofSeconds (seconds : Nat) : Nat := seconds * nanosecondsPerSecond

/-- Whole seconds and the remaining nanoseconds, each rounded to a number and then added. -/
def inSeconds (nanoseconds : Nat) : Binary64 :=
  (Binary64.ofWord (nanoseconds / nanosecondsPerSecond)).add
    ((Binary64.ofWord (nanoseconds % nanosecondsPerSecond)).div
      (Binary64.ofWord nanosecondsPerSecond))

end TierVault.Duration

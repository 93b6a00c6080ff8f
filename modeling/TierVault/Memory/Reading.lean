import TierVault.Binary64

/-!
Readings of process memory, and the statistics shown for them.
-/

namespace TierVault

/-- Bytes of memory of the process and of the machine. -/
structure MemoryReading where
  resident : Nat
  reserved : Nat
  total : Nat
  available : Nat
  deriving DecidableEq, Inhabited

def bytesPerMegabyte : Nat := 1024 * 1024

namespace MemoryReading

/-- `megabytes` of resident memory on a machine of 16 gigabytes. -/
def ofResidentMegabytes (megabytes : Nat) : Except Fault MemoryReading := do
  let total := 16 * 1024 * bytesPerMegabyte
  let resident ← Word.product (← Word.product megabytes 1024) 1024
  let reserved ← Word.product resident 2
  return { resident, reserved, total, available := total - resident }

end MemoryReading

/-- How many reclaim passes ran for each reason. -/
structure ReclaimCounts where
  periodic : Nat
  pressure : Nat
  forced : Nat
  deriving DecidableEq, Inhabited

structure MemoryStats where
  residentMegabytes : Binary64
  reservedMegabytes : Binary64
  /-- Resident memory in percent of the machine's. -/
  percent : Binary64
  availableMegabytes : Binary64
  counts : ReclaimCounts

namespace MemoryStats

def megabytes (bytes : Nat) : Binary64 :=
  (Binary64.ofWord bytes).div (Binary64.ofWord bytesPerMegabyte)

def ofReading (reading : MemoryReading) (counts : ReclaimCounts) : MemoryStats where
  residentMegabytes := megabytes reading.resident
  reservedMegabytes := megabytes reading.reserved
  percent :=
    if reading.total = 0 then Binary64.zero
    else ((Binary64.ofWord reading.resident).div (Binary64.ofWord reading.total)).mul
      (Binary64.ofWord 100)
  availableMegabytes := megabytes reading.available
  counts := counts

end MemoryStats

end TierVault

/-! ## What the system says

About the process the system gives counts of pages, first the reserved ones and then the resident
ones. About the machine it gives named quantities in kilobytes. -/

namespace TierVault.MemoryReading

def pageBytes : Nat := 4096

def words (text : String) : List String :=
  (text.splitToList Char.isWhitespace).filter (· ≠ "")

/-- The number that stands at a place among the words; 0 if there is none. -/
def numberAt (texts : List String) (place : Nat) : Nat :=
  (texts[place]?.bind String.toNat?).getD 0

def numberAfter (name : String) (texts : List String) : Nat :=
  numberAt texts (texts.idxOf name + 1)

def ofSystem (process machine : String) : MemoryReading where
  resident := pageBytes * numberAt (words process) 1
  reserved := pageBytes * numberAt (words process) 0
  total := 1024 * numberAfter "MemTotal:" (words machine)
  available := 1024 * numberAfter "MemAvailable:" (words machine)

end TierVault.MemoryReading

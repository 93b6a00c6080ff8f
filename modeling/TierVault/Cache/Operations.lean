import TierVault.Cache.State
import TierVault.Eviction

/-!
The operations of a tiered cache.

None of them reports an error: a store that fails makes a read a miss, and a write a refusal.
-/

namespace TierVault.TieredCache

/-! # Room

Making room in a tier.

What must leave a tier moves to the next colder one, where room is made first in the same way. What
cannot move, or leaves the coldest tier, is evicted. Keys on their way are protected: they are never
asked to leave.
-/

variable {World : Type}

/-- Copies a value into a colder tier, where `room` makes room, and moves its entry. -/
def demote (setup : CacheSetup World) (room : Nat → List String → CacheAction World Bool)
    (key : String) (source target : Tier) (protectedKeys : List String) :
    CacheAction World Bool := do
  match ← lookup key with
  | none => return false
  | some entry =>
    match ← onStore setup source (·.get key) with
    | .error _ | .ok none => return false
    | .ok (some value) =>
      if !(← room entry.size (protectedKeys ++ [key])) then return false
      match ← onStore setup target (·.put key value) with
      | .error _ => return false
      | .ok _ =>
        moveEntry setup key source target entry.size
        count fun counters => { counters with demotions := counters.demotions + 1 }
        record "demote" "ok"
        return true

/-- Evicts an entry. -/
def evict (setup : CacheSetup World) (key : String) : CacheAction World Unit := do
  if ← removeEntry setup key then
    count fun counters => { counters with evictions := counters.evictions + 1 }
    record "evict" "ok"

/-- Makes room for `needed` bytes in the first of the tiers; the others are the colder ones, in order.
Tells whether the bytes fit now. -/
def makeRoomIn (setup : CacheSetup World) : (tiers : List Tier) → (needed : Nat) →
    (protectedKeys : List String) → CacheAction World Bool
  | [], _, _ => return false
  | tier :: colder, needed, protectedKeys => do
    let usage := (← get).usage.get tier
    if usage.capacity < needed then return false
    if needed ≤ usage.available then return true
    let victims ← Action.ofExcept
      (Eviction.victims (← get).entryList tier (needed - usage.available) protectedKeys)
    victims.forM fun victim => do
      let demoted ← match colder with
        | [] => pure false
        | next :: _ =>
          demote setup (makeRoomIn setup colder) victim.key tier next protectedKeys
      if !demoted then evict setup victim.key
    let usage := (← get).usage.get tier
    return (← Action.ofExcept (Word.sum usage.bytes needed)) ≤ usage.capacity

def makeRoom (setup : CacheSetup World) (tier : Tier) (needed : Nat)
    (protectedKeys : List String) : CacheAction World Bool :=
  makeRoomIn setup tier.downward needed protectedKeys

/-- Copies a value into a hotter tier and moves its entry, if there is room. -/
def promote (setup : CacheSetup World) (key : String) (source target : Tier) (value : Value) :
    CacheAction World Unit := do
  match ← lookup key with
  | none => return ()
  | some entry =>
    if !(← makeRoom setup target entry.size [key]) then return ()
    match ← onStore setup target (·.put key value) with
    | .error _ => return ()
    | .ok _ =>
      moveEntry setup key source target entry.size
      count fun counters => { counters with promotions := counters.promotions + 1 }
      record "promote" "ok"

/-! # Operations -/

/-! ## Reading -/

/-- Counts a read that found nothing. -/
def miss (outcome : String) : CacheAction World (Option Value) := do
  count fun counters => { counters with misses := counters.misses + 1 }
  record "get" outcome
  return none

def countExpired (amount : Nat) : CacheAction World Unit :=
  count fun counters => { counters with expirations := counters.expirations + amount }

/-- Counts a read that found the value, and moves an entry that is read often one tier up. -/
def hit (setup : CacheSetup World) (key : String) (tier : Tier) (value : Value) (now : Nat) :
    CacheAction World (Option Value) := do
  let frequency ← touchEntry setup key now
  count fun counters => { counters with hits := counters.hits + 1 }
  record "get" "hit"
  match tier.hotter? with
  | some hotter =>
    if frequency.exceeds setup.tiers.promotionThreshold then promote setup key tier hotter value
  | none => pure ()
  return some value

/-- The value under a key. An entry that is expired, or whose payload is gone or cannot be read, is
dropped. -/
def get (setup : CacheSetup World) (key : String) : CacheAction World (Option Value) := do
  let now ← readClock setup
  match ← lookup key with
  | none => miss "miss"
  | some entry =>
    if entry.isExpired now then
      let _ ← removeEntry setup key
      countExpired 1
      miss "expired"
    else
      match ← onStore setup entry.tier (·.get key) with
      | .ok (some value) => hit setup key entry.tier value now
      | .ok none =>
        let _ ← dropEntry setup key
        miss "stale"
      | .error _ =>
        let _ ← removeEntry setup key
        miss "error"

/-- Whether a key has an entry that is not expired. -/
def has (setup : CacheSetup World) (key : String) : CacheAction World Bool := do
  match ← lookup key with
  | none => return false
  | some entry =>
    if entry.isExpired (← readClock setup) then
      let _ ← removeEntry setup key
      countExpired 1
      return false
    else return true

/-! ## Writing -/

/-- Counts a write that failed. -/
def refuse (outcome : String) : CacheAction World Bool := do
  count fun counters => { counters with writeFailures := counters.writeFailures + 1 }
  record "put" outcome
  return false

/-- Takes the entry of a key that was written to `tier` out of the books. A copy in another tier is
deleted. -/
def replaceEntry (setup : CacheSetup World) (key : String) (tier : Tier) :
    CacheAction World Unit := do
  match ← dropEntry setup key with
  | some old => if old.tier ≠ tier then discardPayload setup old.tier key
  | none => return ()

/-- The bytes of a key's entry that a write to `tier` replaces. -/
def reclaimable (key : String) (tier : Tier) : CacheAction World Nat := do
  match ← lookup key with
  | some old => return if old.tier = tier then old.size else 0
  | none => return 0

/-- Writes a value to the first of the tiers that can hold it. A store that fails ends the search. -/
def place (setup : CacheSetup World) (key : String) (value : Value) (size : Nat)
    (lifetime? : Option Nat) : (tiers : List Tier) → CacheAction World Bool
  | [] => refuse "too_large"
  | tier :: colder => do
    if setup.tiers.capacity tier < size then place setup key value size lifetime? colder
    else
      let needed := size - (← reclaimable key tier)
      if !(← makeRoom setup tier needed [key]) then place setup key value size lifetime? colder
      else
        match ← onStore setup tier (·.put key value) with
        | .error _ => refuse "error"
        | .ok _ =>
          replaceEntry setup key tier
          insertEntry setup key size tier lifetime?
          record "put" "ok"
          return true

/-- Stores a value for `lifetime?` nanoseconds, or for the default lifetime. Tells whether a tier took
it. -/
def put (setup : CacheSetup World) (key : String) (value : Value) (lifetime? : Option Nat) :
    CacheAction World Bool := do
  match value.encodedSize with
  | .error _ =>
    record "put" "unserializable"
    return false
  | .ok size =>
    place setup key value size (lifetime? <|> setup.defaultLifetime?)
      (setup.tiers.tierForSize size).downward

/-- Removes a key, and tells whether it had an entry. -/
def delete (setup : CacheSetup World) (key : String) : CacheAction World Bool := do
  let removed ← removeEntry setup key
  record "delete" (if removed then "ok" else "missing")
  return removed

/-- Empties every tier. -/
def clear (setup : CacheSetup World) : CacheAction World Unit := do
  Tier.all.forM fun tier => do
    let _ ← onStore setup tier (·.clear)
    setUsage tier { (← MonadState.get).usage.get tier with entries := 0, bytes := 0 }
  changeEntries fun _ => []

/-! ## Expiry -/

/-- Removes every expired entry, and tells how many there were. -/
def cleanupExpired (setup : CacheSetup World) : CacheAction World Nat := do
  let now ← readClock setup
  let expired := (← MonadState.get).entries.filter fun (_, entry) => entry.isExpired now
  expired.forM fun (key, _) => do
    let _ ← removeEntry setup key
  countExpired expired.length
  return expired.length

/-- Removes every expired entry, and tells how many bytes they had. -/
def reclaimExpired (setup : CacheSetup World) : CacheAction World Nat := do
  let now ← readClock setup
  let expired := (← MonadState.get).entryList.filter (·.isExpired now)
  let bytes ← Action.ofExcept (Word.total (expired.map Entry.size))
  let _ ← cleanupExpired setup
  return bytes

/-! ## Finding what the stores hold -/

/-- Makes an entry for a stored payload. A copy of a key that has an entry already is deleted. -/
def adopt (setup : CacheSetup World) (tier : Tier) (key : String) (size : Nat) :
    CacheAction World Nat := do
  match ← lookup key with
  | some _ =>
    discardPayload setup tier key
    return 0
  | none =>
    insertEntry setup key size tier setup.defaultLifetime?
    return 1

/-- Makes entries for everything that the stores hold, from hot to cold and in the order of their last
use. Tells how many. -/
def restore (setup : CacheSetup World) : CacheAction World Nat := do
  let restored ← Tier.all.mapM fun tier => do
    match ← onStore setup tier (·.entries) with
    | .error _ => return 0
    | .ok stored => return sumOf (← stored.mapM fun (key, size) => adopt setup tier key size)
  return sumOf restored

end TierVault.TieredCache

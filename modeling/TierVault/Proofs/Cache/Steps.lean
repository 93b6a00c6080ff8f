import TierVault.Cache.Operations
import TierVault.Proofs.Action

/-!
What the steps of a tiered cache lead to.

Each step is a change of the state: an entry is enrolled, forgotten or relocated, or a store call leaves
another world. Steps can stop with a fault for three reasons only: a store stops, a count leaves the word
range, or a cache that does not clamp its counts counts out more than it has counted in.
-/

namespace TierVault

variable {World Local Result : Type}

/-! ## Usage -/

namespace TierUsage

/-- With one more entry of `size` bytes. -/
def more (usage : TierUsage) (size : Nat) : TierUsage :=
  { usage with entries := usage.entries + 1, bytes := usage.bytes + size }

/-- With one entry of `size` bytes less. -/
def less (usage : TierUsage) (size : Nat) : TierUsage :=
  { usage with entries := usage.entries - 1, bytes := usage.bytes - size }

/-- An entry of `size` bytes can be counted out without going below zero. -/
def Covers (usage : TierUsage) (size : Nat) : Prop := 1 ≤ usage.entries ∧ size ≤ usage.bytes

end TierUsage

theorem Shortfall.takeAway_of_le (shortfall : Shortfall) {held amount : Nat}
    (covered : amount ≤ held) : shortfall.takeAway held amount = .ok (held - amount) := by
  cases shortfall with
  | clamp => rfl
  | stop => simp [takeAway, Word.difference, covered]

/-! ## Changes of the state -/

namespace CacheState

/-- After store calls that left `world` behind. -/
def inWorld (state : CacheState World) (world : World) : CacheState World := { state with world }

def withUsage (state : CacheState World) (tier : Tier) (usage : TierUsage) : CacheState World :=
  { state with
    usage := state.usage.set tier usage
    metrics := state.metrics.setTier tier usage.entries usage.bytes }

/-- A new entry is in the books. -/
def enroll (state : CacheState World) (key : String) (entry : Entry) : CacheState World :=
  { state with entries := Keyed.put key entry state.entries }.withUsage entry.tier
    ((state.usage.get entry.tier).more entry.size)

/-- The entry of a key is out of the books. -/
def forget (state : CacheState World) (key : String) (entry : Entry) : CacheState World :=
  { state with entries := Keyed.remove key state.entries }.withUsage entry.tier
    ((state.usage.get entry.tier).less entry.size)

/-- The entry of a key is in the books of another tier. -/
def relocate (state : CacheState World) (key : String) (entry : Entry) (target : Tier) :
    CacheState World :=
  let out := state.withUsage entry.tier ((state.usage.get entry.tier).less entry.size)
  let moved := out.withUsage target ((out.usage.get target).more entry.size)
  { moved with entries := Keyed.put key { entry with tier := target } state.entries }

def counted (state : CacheState World) (change : Counters → Counters) : CacheState World :=
  { state with counters := change state.counters }

def recorded (state : CacheState World) (operation outcome : String) : CacheState World :=
  { state with metrics := state.metrics.record operation outcome }

/-- The clock was read. -/
def timed (state : CacheState World) : CacheState World :=
  { state with readings := state.readings + 1 }

/-- An access was numbered. -/
def ticked (state : CacheState World) : CacheState World := { state with tick := state.tick + 1 }

/-- The entry after a read. -/
def touched (setup : CacheSetup World) (state : CacheState World) (entry : Entry) : Entry :=
  entry.touch (state.tick + 1) (setup.clock state.readings)

/-- The entry of a key was read. -/
def touch (setup : CacheSetup World) (state : CacheState World) (key : String) (entry : Entry) :
    CacheState World :=
  { state.ticked.timed with entries := Keyed.put key (touched setup state entry) state.entries }

section Fields

variable (state : CacheState World) (key : String) (entry : Entry) (tier : Tier) (usage : TierUsage)
  (world : World) (change : Counters → Counters) (operation outcome : String)

@[simp] theorem lookup_inWorld : (state.inWorld world).lookup key = state.lookup key := rfl

@[simp] theorem lookup_withUsage : (state.withUsage tier usage).lookup key = state.lookup key := rfl

@[simp] theorem lookup_counted : (state.counted change).lookup key = state.lookup key := rfl

@[simp] theorem lookup_recorded :
    (state.recorded operation outcome).lookup key = state.lookup key := rfl

@[simp] theorem lookup_timed : state.timed.lookup key = state.lookup key := rfl

@[simp] theorem lookup_ticked : state.ticked.lookup key = state.lookup key := rfl

@[simp] theorem usage_inWorld : (state.inWorld world).usage = state.usage := rfl

@[simp] theorem usage_withUsage :
    (state.withUsage tier usage).usage = state.usage.set tier usage := rfl

@[simp] theorem usage_counted : (state.counted change).usage = state.usage := rfl

@[simp] theorem usage_recorded : (state.recorded operation outcome).usage = state.usage := rfl

@[simp] theorem usage_timed : state.timed.usage = state.usage := rfl

@[simp] theorem usage_ticked : state.ticked.usage = state.usage := rfl

@[simp] theorem world_inWorld : (state.inWorld world).world = world := rfl

@[simp] theorem world_withUsage : (state.withUsage tier usage).world = state.world := rfl

@[simp] theorem world_counted : (state.counted change).world = state.world := rfl

@[simp] theorem world_recorded : (state.recorded operation outcome).world = state.world := rfl

@[simp] theorem world_timed : state.timed.world = state.world := rfl

@[simp] theorem world_ticked : state.ticked.world = state.world := rfl

@[simp] theorem world_enroll : (state.enroll key entry).world = state.world := rfl

@[simp] theorem world_forget : (state.forget key entry).world = state.world := rfl

@[simp] theorem world_relocate : (state.relocate key entry tier).world = state.world := rfl

end Fields

end CacheState

/-! ## Stores that do not stop -/

/-- From a sound world, the action answers and leaves a sound world, or stops with one of the faults. -/
def StoreAction.Keeps (faults : Fault → Prop) (sound : World → Prop)
    (action : StoreAction World Result) : Prop :=
  ∀ world, sound world → Action.Leads faults action.run world fun _ after => sound after

/-- The calls on stores leave sound worlds sound, and stop with the faults only. -/
structure CacheSetup.Steady (setup : CacheSetup World) (faults : Fault → Prop)
    (sound : World → Prop) : Prop where
  get : ∀ tier key, ((setup.stores.get tier).get key).Keeps faults sound
  put : ∀ tier key value, ((setup.stores.get tier).put key value).Keeps faults sound
  delete : ∀ tier key, ((setup.stores.get tier).delete key).Keeps faults sound
  clear : ∀ tier, (setup.stores.get tier).clear.Keeps faults sound

theorem CacheSetup.Steady.mono {setup : CacheSetup World} {faults more : Fault → Prop}
    {sound : World → Prop} (steady : setup.Steady faults sound)
    (expected : ∀ fault, faults fault → more fault) : setup.Steady more sound where
  get tier key world isSound := (steady.get tier key world isSound).mono expected
  put tier key value world isSound := (steady.put tier key value world isSound).mono expected
  delete tier key world isSound := (steady.delete tier key world isSound).mono expected
  clear tier world isSound := (steady.clear tier world isSound).mono expected

namespace TieredCache

open TierVault.Action

variable {faults : Fault → Prop} {setup : CacheSetup World} {sound : World → Prop} {state : CacheState World}
  {tier : Tier} {key : String} {size : Nat}

/-! ## Steps -/

@[simp] theorem leads_lookup (after : Option Entry → CacheState World → Prop) :
    Leads faults (lookup key) state after ↔ after (state.lookup key) state := Iff.rfl

@[simp] theorem leads_readClock (after : Nat → CacheState World → Prop) :
    Leads faults (readClock setup) state after ↔
      after (setup.clock state.readings) state.timed := Iff.rfl

@[simp] theorem leads_nextTick (after : Nat → CacheState World → Prop) :
    Leads faults nextTick state after ↔
      after (state.tick + 1) state.ticked := Iff.rfl

@[simp] theorem leads_count (change : Counters → Counters)
    (after : Unit → CacheState World → Prop) :
    Leads faults (count change) state after ↔
      after () (state.counted change) := Iff.rfl

@[simp] theorem leads_record (operation outcome : String)
    (after : Unit → CacheState World → Prop) :
    Leads faults (record operation outcome) state after ↔
      after () (state.recorded operation outcome) := Iff.rfl

@[simp] theorem leads_setUsage (usage : TierUsage) (after : Unit → CacheState World → Prop) :
    Leads faults (setUsage tier usage) state after ↔ after () (state.withUsage tier usage) := Iff.rfl

theorem leads_onStore {call : Store World → StoreAction World Result}
    {after : Except StoreError Result → CacheState World → Prop}
    (keeps : (call (setup.stores.get tier)).Keeps faults sound) (isSound : sound state.world)
    (leads : ∀ answer world, (call (setup.stores.get tier)).run state.world = .ok answer world →
      sound world → after answer (state.inWorld world)) :
    Leads faults (onStore setup tier call) state after := by
  have kept := keeps state.world isSound
  unfold Leads onStore
  cases called : (call (setup.stores.get tier)).run state.world with
  | ok answer world => exact leads answer world called (kept.of_ok called)
  | error fault world => exact kept.of_error called

theorem leads_accountAdd {after : Unit → CacheState World → Prop}
    (fits : ¬faults .sumOverflow → (state.usage.get tier).bytes + size < Word.limit)
    (leads : after () (state.withUsage tier ((state.usage.get tier).more size))) :
    Leads faults (accountAdd tier size) state after := by
  simp only [accountAdd, leads_bind]
  exact leads_sum fits leads

theorem leads_accountRemove {after : Unit → CacheState World → Prop}
    (covered : (state.usage.get tier).Covers size)
    (leads : after () (state.withUsage tier ((state.usage.get tier).less size))) :
    Leads faults (accountRemove setup tier size) state after := by
  have entries := setup.shortfall.takeAway_of_le covered.1
  have bytes := setup.shortfall.takeAway_of_le covered.2
  simp only [accountRemove, leads_bind, leads_get, entries, bytes, leads_ofExcept_ok]
  exact leads

/-! ## Entries come, go and move -/

theorem leads_insertEntry {lifetime? : Option Nat} {after : Unit → CacheState World → Prop}
    (fits : ¬faults .sumOverflow → (state.usage.get tier).bytes + size < Word.limit)
    (leads : after () (state.ticked.timed.enroll key (.create key size tier lifetime? (state.tick + 1) (setup.clock state.readings)))) :
    Leads faults (insertEntry setup key size tier lifetime?) state after := by
  simp only [insertEntry, changeEntries, leads_bind, leads_nextTick, leads_readClock, leads_modify]
  exact leads_accountAdd fits leads

theorem leads_dropEntry {after : Option Entry → CacheState World → Prop}
    (covered : ∀ entry, state.lookup key = some entry →
      (state.usage.get entry.tier).Covers entry.size)
    (missing : state.lookup key = none → after none state)
    (dropped : ∀ entry, state.lookup key = some entry →
      after (some entry) (state.forget key entry)) :
    Leads faults (dropEntry setup key) state after := by
  simp only [dropEntry, leads_bind, leads_lookup]
  cases found : state.lookup key with
  | none => exact missing found
  | some entry =>
      simp only [changeEntries, leads_bind, leads_modify, leads_pure]
      exact leads_accountRemove (covered entry found) (dropped entry found)

theorem leads_discardPayload {after : Unit → CacheState World → Prop}
    (steady : setup.Steady faults sound) (isSound : sound state.world)
    (leads : ∀ answer world,
      ((setup.stores.get tier).delete key).run state.world = .ok answer world →
      sound world → after () (state.inWorld world)) :
    Leads faults (discardPayload setup tier key) state after := by
  simp only [discardPayload, leads_bind, leads_pure]
  exact leads_onStore (steady.delete tier key) isSound leads

theorem leads_removeEntry {after : Bool → CacheState World → Prop}
    (steady : setup.Steady faults sound) (isSound : sound state.world)
    (covered : ∀ entry, state.lookup key = some entry →
      (state.usage.get entry.tier).Covers entry.size)
    (missing : state.lookup key = none → after false state)
    (removed : ∀ entry answer world, state.lookup key = some entry →
      ((setup.stores.get entry.tier).delete key).run state.world = .ok answer world →
      sound world → after true ((state.forget key entry).inWorld world)) :
    Leads faults (removeEntry setup key) state after := by
  simp only [removeEntry, leads_bind]
  refine leads_dropEntry covered missing fun entry found => ?_
  simp only [leads_bind, leads_pure]
  exact leads_discardPayload steady isSound fun answer world => removed entry answer world found

theorem leads_moveEntry {target : Tier} {entry : Entry}
    {after : Unit → CacheState World → Prop}
    (steady : setup.Steady faults sound) (isSound : sound state.world)
    (found : state.lookup key = some entry) (different : entry.tier ≠ target)
    (covered : (state.usage.get entry.tier).Covers entry.size)
    (fits : ¬faults .sumOverflow → (state.usage.get target).bytes + entry.size < Word.limit)
    (moved : ∀ answer world,
      ((setup.stores.get entry.tier).delete key).run state.world = .ok answer world →
      sound world → after () ((state.inWorld world).relocate key entry target)) :
    Leads faults (moveEntry setup key entry.tier target entry.size) state after := by
  simp only [moveEntry, leads_bind]
  refine leads_discardPayload steady isSound fun answer world called stays => ?_
  refine leads_accountRemove covered (leads_accountAdd (fun checked => ?_) ?_)
  · simpa [CacheState.withUsage, different.symm] using fits checked
  · simp only [leads_lookup, CacheState.lookup_withUsage, CacheState.lookup_inWorld, found,
      changeEntries, leads_modify]
    exact moved answer world called stays

theorem leads_touchEntry {now : Nat} {entry : Entry} {after : Binary64 → CacheState World → Prop}
    (found : state.lookup key = some entry) :
    Leads faults (touchEntry setup key now) state after ↔
      after ((CacheState.touched setup state entry).accessFrequency now) (CacheState.touch setup state key entry) := by
  simp only [touchEntry, changeEntries, leads_bind, leads_nextTick, leads_lookup,
    CacheState.lookup_ticked, found, leads_readClock, leads_modify, leads_pure]
  rfl

end TieredCache

end TierVault

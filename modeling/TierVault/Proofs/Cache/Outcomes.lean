import TierVault.Proofs.Cache.Room
import TierVault.Proofs.Value.Encoding

/-!
What the operations of a tiered cache can do.

An outcome relates the state before an operation, its answer and the state after it. There is one for each
way through the operation, with the answers of the stores that lead there. Whatever is to be known about the
operation follows from its outcomes.
-/

namespace TierVault

variable {World : Type}

namespace CacheState

/-! ## Removing -/

/-- The entry of a key was forgotten, and its payload asked to go. -/
inductive Removes (setup : CacheSetup World) (key : String) (state : CacheState World) :
    Bool → CacheState World → Prop
  | missing (unknown : state.lookup key = none) : Removes setup key state false state
  | removed {entry answer world} (found : state.lookup key = some entry)
      (deleted : ((setup.stores.get entry.tier).delete key).run state.world =
        .ok answer world) :
      Removes setup key state true ((state.forget key entry).inWorld world)

inductive Deletes (setup : CacheSetup World) (key : String) (state : CacheState World) :
    Bool → CacheState World → Prop
  | deleted {removed outcome final} (removes : Removes setup key state removed final) :
      Deletes setup key state removed (final.recorded "delete" outcome)

/-- The entries of all keys were, one after the other. -/
inductive RemovesAll (setup : CacheSetup World) :
    List String → CacheState World → CacheState World → Prop
  | nil (state : CacheState World) : RemovesAll setup [] state state
  | cons {key keys state removed middle final} (first : Removes setup key state removed middle)
      (rest : RemovesAll setup keys middle final) : RemovesAll setup (key :: keys) state final

def expired (amount : Nat) (state : CacheState World) : CacheState World :=
  state.counted fun counters => { counters with expirations := counters.expirations + amount }

/-- The keys whose entries are expired. -/
def expiredKeys (state : CacheState World) (now : Nat) : List String :=
  (state.entries.filter fun (_, entry) => entry.isExpired now).map Prod.fst

/-- Every expired entry was removed. -/
inductive Cleans (setup : CacheSetup World) (state : CacheState World) :
    Nat → CacheState World → Prop
  | cleaned {final}
      (removed : RemovesAll setup (state.expiredKeys (setup.clock state.readings)) state.timed
        final) :
      Cleans setup state (state.expiredKeys (setup.clock state.readings)).length
        (final.expired (state.expiredKeys (setup.clock state.readings)).length)

/-- Every expired entry was removed, and their bytes told. -/
inductive Reclaims (setup : CacheSetup World) (state : CacheState World) :
    Nat → CacheState World → Prop
  | reclaimed {count final} (cleans : Cleans setup state.timed count final) :
      Reclaims setup state
        (sumOf ((state.entryList.filter fun entry =>
          entry.isExpired (setup.clock state.readings)).map Entry.size)) final

inductive Has (setup : CacheSetup World) (key : String) (state : CacheState World) :
    Bool → CacheState World → Prop
  | missing (unknown : state.lookup key = none) : Has setup key state false state
  | expired {entry final} (found : state.lookup key = some entry)
      (late : entry.isExpired (setup.clock state.readings) = true)
      (removed : Removes setup key state.timed true final) :
      Has setup key state false (final.expired 1)
  | present {entry} (found : state.lookup key = some entry)
      (live : entry.isExpired (setup.clock state.readings) = false) :
      Has setup key state true state.timed

/-! ## Reading -/

def missed (outcome : String) (state : CacheState World) : CacheState World :=
  (state.counted fun counters => { counters with misses := counters.misses + 1 }).recorded "get"
    outcome

def hit (state : CacheState World) : CacheState World :=
  (state.counted fun counters => { counters with hits := counters.hits + 1 }).recorded "get" "hit"

def promoted (state : CacheState World) : CacheState World :=
  (state.counted fun counters => { counters with promotions := counters.promotions + 1 }).recorded
    "promote" "ok"

/-- A value that was read may have moved one tier up. -/
inductive Rises (setup : CacheSetup World) (key : String) (entry : Entry) (value : Value)
    (state : CacheState World) : CacheState World → Prop
  | stays {target final} (room : Retreat setup target [key] state final) :
      Rises setup key entry value state final
  | refused {target roomy final} (hotter : entry.tier.hotter? = some target)
      (room : Retreat setup target [key] state roomy)
      (refuses : Refuses setup key entry.size value target roomy final) :
      Rises setup key entry value state final
  | rises {target roomy final} (hotter : entry.tier.hotter? = some target)
      (room : Retreat setup target [key] state roomy)
      (moves : Moves setup key entry value target roomy final) :
      Rises setup key entry value state final.promoted

inductive Reads (setup : CacheSetup World) (key : String) (state : CacheState World) :
    Option Value → CacheState World → Prop
  | missing (unknown : state.lookup key = none) :
      Reads setup key state none (state.timed.missed "miss")
  | expired {entry final} (found : state.lookup key = some entry)
      (late : entry.isExpired (setup.clock state.readings) = true)
      (removed : Removes setup key state.timed true final) :
      Reads setup key state none ((final.expired 1).missed "expired")
  | stale {entry world} (found : state.lookup key = some entry)
      (live : entry.isExpired (setup.clock state.readings) = false)
      (get : ((setup.stores.get entry.tier).get key).run state.world = .ok (.ok none) world) :
      Reads setup key state none (((state.timed.inWorld world).forget key entry).missed "stale")
  | failed {entry error world final} (found : state.lookup key = some entry)
      (live : entry.isExpired (setup.clock state.readings) = false)
      (get : ((setup.stores.get entry.tier).get key).run state.world = .ok (.error error) world)
      (removed : Removes setup key (state.timed.inWorld world) true final) :
      Reads setup key state none (final.missed "error")
  | hit {entry value world final} (found : state.lookup key = some entry)
      (live : entry.isExpired (setup.clock state.readings) = false)
      (get : ((setup.stores.get entry.tier).get key).run state.world =
        .ok (.ok (some value)) world)
      (rises : Rises setup key (touched setup (state.timed.inWorld world) entry) value
        (touch setup (state.timed.inWorld world) key entry).hit final) :
      Reads setup key state (some value) final

/-! ## Writing -/

/-- The entry that a written value replaces was taken out of the books. -/
inductive Replaces (setup : CacheSetup World) (key : String) (tier : Tier)
    (state : CacheState World) : CacheState World → Prop
  | nothing (unknown : state.lookup key = none) : Replaces setup key tier state state
  | here {old} (found : state.lookup key = some old) (same : old.tier = tier) :
      Replaces setup key tier state (state.forget key old)
  | elsewhere {old answer world} (found : state.lookup key = some old)
      (different : old.tier ≠ tier)
      (deleted : ((setup.stores.get old.tier).delete key).run state.world = .ok answer world) :
      Replaces setup key tier state ((state.forget key old).inWorld world)

/-- A new entry, created now, is in the books. -/
def insert (setup : CacheSetup World) (state : CacheState World) (key : String) (size : Nat)
    (tier : Tier) (lifetime? : Option Nat) : CacheState World :=
  state.ticked.timed.enroll key
    (.create key size tier lifetime? (state.tick + 1) (setup.clock state.readings))

def unwritten (outcome : String) (state : CacheState World) : CacheState World :=
  (state.counted fun counters =>
    { counters with writeFailures := counters.writeFailures + 1 }).recorded "put" outcome

inductive Writes (setup : CacheSetup World) (key : String) (value : Value)
    (lifetime? : Option Nat) (state : CacheState World) : Bool → CacheState World → Prop
  | unserializable {error} (unsized : value.encodedSize = .error error) :
      Writes setup key value lifetime? state false (state.recorded "put" "unserializable")
  | tooLarge {size final} (sized : value.encodedSize = .ok size)
      (room : Retreat setup (setup.tiers.tierForSize size) [key] state final) :
      Writes setup key value lifetime? state false (final.unwritten "too_large")
  | refused {size tier roomy final} (sized : value.encodedSize = .ok size)
      (cold : (setup.tiers.tierForSize size).level ≤ tier.level)
      (room : Retreat setup (setup.tiers.tierForSize size) [key] state roomy)
      (refuses : Refuses setup key size value tier roomy final) :
      Writes setup key value lifetime? state false (final.unwritten "error")
  | written {size tier roomy world replaced} (sized : value.encodedSize = .ok size)
      (cold : (setup.tiers.tierForSize size).level ≤ tier.level)
      (room : Retreat setup (setup.tiers.tierForSize size) [key] state roomy)
      (fits : Fits setup roomy key tier size)
      (put : ((setup.stores.get tier).put key value).run roomy.world = .ok (.ok ()) world)
      (replaces : Replaces setup key tier (roomy.inWorld world) replaced) :
      Writes setup key value lifetime? state true
        ((insert setup replaced key size tier (lifetime? <|> setup.defaultLifetime?)).recorded
          "put" "ok")

/-! ## Clearing -/

/-- The stores of the tiers were asked to drop everything, and nothing is counted in them. -/
inductive Empties (setup : CacheSetup World) :
    List Tier → CacheState World → CacheState World → Prop
  | nil (state : CacheState World) : Empties setup [] state state
  | cons {tier tiers state answer world final}
      (cleared : (setup.stores.get tier).clear.run state.world = .ok answer world)
      (rest : Empties setup tiers
        ((state.inWorld world).withUsage tier
          { state.usage.get tier with entries := 0, bytes := 0 })
        final) :
      Empties setup (tier :: tiers) state final

inductive Clears (setup : CacheSetup World) (state : CacheState World) : CacheState World → Prop
  | cleared {final} (empties : Empties setup Tier.all state final) :
      Clears setup state { final with entries := [] }

variable {setup : CacheSetup World} {state final : CacheState World} {key : String} {entry : Entry}
  {value : Value} {tier target : Tier} {lifetime? : Option Nat}

/-! ## The books after each outcome -/

theorem Removes.restrained {removed : Bool} (removes : Removes setup key state removed final)
    (start : state.Tallied setup) : Restrained setup state final := by
  cases removes with
  | missing => exact .refl start
  | removed found => exact (start.restrained_forget found).inWorld _

theorem Removes.total_le {removed : Bool} (removes : Removes setup key state removed final)
    (start : state.Tallied setup) : final.total ≤ state.total := by
  cases removes with
  | missing => exact Nat.le_refl _
  | removed found =>
      have out := total_forget start found
      rw [total_inWorld]
      omega

theorem Removes.lookup {removed : Bool} (removes : Removes setup key state removed final) :
    final.lookup key = none := by
  cases removes with
  | missing unknown => exact unknown
  | removed => simp [lookup_forget]

theorem Removes.of_lookup {removed : Bool} (removes : Removes setup key state removed final)
    (found : state.lookup key = some entry) : Removes setup key state true final := by
  cases removes with
  | missing unknown => cases unknown.symm.trans found
  | removed same deleted => exact .removed same deleted

theorem Deletes.restrained {removed : Bool} (deletes : Deletes setup key state removed final)
    (start : state.Tallied setup) : Restrained setup state final := by
  cases deletes with
  | deleted removes => exact (removes.restrained start).recorded _ _

theorem RemovesAll.restrained {keys : List String} (removes : RemovesAll setup keys state final)
    (start : state.Tallied setup) : Restrained setup state final := by
  induction removes with
  | nil => exact .refl start
  | cons first _ induction =>
      have removed := first.restrained start
      exact removed.trans (induction removed.tallied)

theorem Moves.restrained (moves : Moves setup key entry value target state final)
    (start : state.Tallied setup) (found : state.lookup key = some entry)
    (different : entry.tier ≠ target) : Restrained setup state final := by
  cases moves with
  | @followed _ after _ fits =>
      have stays := (Restrained.refl start).inWorld after
      exact stays.trans (stays.tallied.restrained_relocate found different fits)

theorem Moves.balanced (moves : Moves setup key entry value target state final)
    (start : state.Balanced setup) (found : state.lookup key = some entry)
    (different : entry.tier ≠ target) : final.Balanced setup :=
  (moves.restrained start.toTallied found different).balanced start

theorem Moves.total_eq (moves : Moves setup key entry value target state final)
    (found : state.lookup key = some entry) : final.total = state.total := by
  cases moves with
  | @followed _ after =>
      have still : (state.inWorld after).lookup key = some entry := found
      exact total_relocate still

theorem Rises.restrained (rises : Rises setup key entry value state final)
    (start : state.Tallied setup) (found : state.lookup key = some entry) :
    Restrained setup state final := by
  cases rises with
  | stays room => exact room.restrained start
  | refused _ room refuses =>
      cases refuses
      exact (room.restrained start).inWorld _
  | rises hotter room moves =>
      have roomed := room.restrained start
      have kept := room.lookup_of_mem (List.mem_singleton.mpr rfl)
      have different := Tier.ne_of_colder (Tier.hotter_eq_some_iff.mp hotter)
      have moved := moves.restrained roomed.tallied (kept.trans found) different.symm
      exact ((roomed.trans moved).counted _).recorded _ _

theorem Rises.total_le (rises : Rises setup key entry value state final)
    (start : state.Tallied setup) (found : state.lookup key = some entry) :
    final.total ≤ state.total := by
  cases rises with
  | stays room => exact room.total_le start
  | refused _ room refuses =>
      cases refuses
      exact room.total_le start
  | rises hotter room moves =>
      have kept := room.lookup_of_mem (List.mem_singleton.mpr rfl)
      have same := moves.total_eq (kept.trans found)
      have less := room.total_le start
      simp only [promoted, total_counted, total_recorded]
      omega

@[simp] theorem lookup_touch : (touch setup state key entry).lookup key =
    some (touched setup state entry) := Keyed.find?_put_same _ _ _

theorem lookup_touch_other {asked : String} (different : asked ≠ key) :
    (touch setup state key entry).lookup asked = state.lookup asked :=
  Keyed.find?_put_other _ _ different

theorem Tallied.touch (tallied : Tallied setup state) (found : state.lookup key = some entry) :
    Tallied setup (touch setup state key entry) :=
  tallied.rewrite found (touched setup state entry) rfl rfl rfl rfl rfl

theorem Balanced.touch (balanced : Balanced setup state) (found : state.lookup key = some entry) :
    Balanced setup (CacheState.touch setup state key entry) :=
  ⟨balanced.toTallied.touch found, balanced.within⟩

theorem total_touch (found : state.lookup key = some entry) :
    (CacheState.touch setup state key entry).total = state.total :=
  total_rewrite found (touched setup state entry) rfl

theorem Reads.restrained {answer : Option Value} (reads : Reads setup key state answer final)
    (start : state.Tallied setup) : Restrained setup state final := by
  have timed := (Restrained.refl start).timed
  cases reads with
  | missing => exact (timed.counted _).recorded _ _
  | expired _ _ removed =>
      have gone := timed.trans (removed.restrained timed.tallied)
      exact ((gone.counted _).counted _).recorded _ _
  | @stale _ world found =>
      have asked := timed.inWorld world
      have gone := asked.trans (asked.tallied.restrained_forget found)
      exact (gone.counted _).recorded _ _
  | @failed _ _ world _ _ _ _ removed =>
      have asked := timed.inWorld world
      have gone := asked.trans (removed.restrained asked.tallied)
      exact (gone.counted _).recorded _ _
  | @hit entry _ world _ found _ _ rises =>
      have touched := (start.timed.inWorld world).touch found
      have used : Restrained setup state (touch setup (state.timed.inWorld world) key entry) :=
        touched.restrained fun _ => Nat.le_refl _
      have hit : Restrained setup state (touch setup (state.timed.inWorld world) key entry).hit :=
        (used.counted _).recorded _ _
      exact hit.trans (rises.restrained hit.tallied lookup_touch)

theorem Reads.total_le {answer : Option Value} (reads : Reads setup key state answer final)
    (start : state.Tallied setup) : final.total ≤ state.total := by
  cases reads with
  | missing => exact Nat.le_refl _
  | expired _ _ removed => exact removed.total_le start.timed
  | @stale _ world found =>
      have out : ((state.timed.inWorld world).forget key _).total + _ = state.total :=
        total_forget (start.timed.inWorld world) found
      simp only [missed, total_counted, total_recorded]
      omega
  | failed _ _ _ removed => exact removed.total_le (start.timed.inWorld _)
  | @hit _ _ world _ found _ _ rises =>
      have touched := (start.timed.inWorld world).touch found
      have less := rises.total_le ((touched.counted _).recorded _ _) lookup_touch
      have same : (touch setup (state.timed.inWorld world) key _).total = state.total :=
        total_touch found
      simp only [CacheState.hit, total_counted, total_recorded] at less
      omega

theorem Has.restrained {answer : Bool} (has : Has setup key state answer final)
    (start : state.Tallied setup) : Restrained setup state final := by
  have timed := (Restrained.refl start).timed
  cases has with
  | missing => exact .refl start
  | expired _ _ removed => exact (timed.trans (removed.restrained timed.tallied)).counted _
  | present => exact timed

theorem Cleans.restrained {answer : Nat} (cleans : Cleans setup state answer final)
    (start : state.Tallied setup) : Restrained setup state final := by
  have timed := (Restrained.refl start).timed
  cases cleans with
  | cleaned removed => exact (timed.trans (removed.restrained timed.tallied)).counted _

theorem Reclaims.restrained {answer : Nat} (reclaims : Reclaims setup state answer final)
    (start : state.Tallied setup) : Restrained setup state final := by
  have timed := (Restrained.refl start).timed
  cases reclaims with
  | reclaimed cleans => exact timed.trans (cleans.restrained timed.tallied)

/-- After the old entry, the key has none. -/
theorem Replaces.lookup (replaces : Replaces setup key tier state final) :
    final.lookup key = none := by
  cases replaces with
  | nothing unknown => exact unknown
  | here => simp [lookup_forget]
  | elsewhere => simp [lookup_forget]

theorem Replaces.lookup_other (replaces : Replaces setup key tier state final) {asked : String}
    (different : asked ≠ key) : final.lookup asked = state.lookup asked := by
  cases replaces with
  | nothing => rfl
  | here => rw [lookup_forget, if_neg different]
  | elsewhere => rw [lookup_inWorld, lookup_forget, if_neg different]

theorem Replaces.tallied (replaces : Replaces setup key tier state final)
    (start : state.Tallied setup) : final.Tallied setup := by
  cases replaces with
  | nothing => exact start
  | here found => exact start.forget found
  | elsewhere found => exact (start.forget found).inWorld _

theorem Replaces.total_le (replaces : Replaces setup key tier state final)
    (start : state.Tallied setup) : final.total ≤ state.total := by
  cases replaces with
  | nothing => exact Nat.le_refl _
  | here found =>
      have out := total_forget start found
      omega
  | elsewhere found =>
      have out := total_forget start found
      rw [total_inWorld]
      omega

theorem Replaces.bytes_le (replaces : Replaces setup key tier state final)
    (start : state.Tallied setup) (place : Tier) :
    (final.usage.get place).bytes ≤ (state.usage.get place).bytes := by
  cases replaces with
  | nothing => exact Nat.le_refl _
  | here found =>
      have out := Entry.bytes_takeFrom place (start.covers found)
      rw [usage_forget]
      omega
  | elsewhere found =>
      have out := Entry.bytes_takeFrom place (start.covers found)
      rw [usage_inWorld, usage_forget]
      omega

/-- After room was made beside the old entry, the new one fits in its place. -/
theorem Replaces.fits {size : Nat} (replaces : Replaces setup key tier state final)
    (start : state.Tallied setup) (space : Fits setup state key tier size) :
    (final.usage.get tier).bytes + size ≤
      max (setup.tiers.capacity tier) (state.usage.get tier).bytes := by
  unfold Fits at space
  cases replaces with
  | nothing unknown => simpa [reclaimed, unknown] using space
  | here found same =>
      have out := Entry.bytes_takeFrom tier (start.covers found)
      subst same
      simp only [reclaimed, found, if_true, Entry.bytesIn_own] at space out
      rw [usage_forget]
      omega
  | elsewhere found different =>
      have out := Entry.bytes_takeFrom tier (start.covers found)
      simp only [reclaimed, found, different, if_false] at space
      rw [Entry.bytesIn_other different] at out
      rw [usage_inWorld, usage_forget]
      omega

/-- The new entry takes the place of the old one. -/
theorem Replaces.restrained {size : Nat} (replaces : Replaces setup key tier state final)
    (start : state.Tallied setup) (space : Fits setup state key tier size) (lifetime? : Option Nat) :
    Restrained setup state (insert setup final key size tier lifetime?) := by
  have ready := replaces.tallied start
  refine ⟨ready.ticked.timed.enroll rfl replaces.lookup, fun place => ?_⟩
  have less := replaces.bytes_le start place
  have fits := replaces.fits start space
  rw [insert, usage_enroll, Entry.bytes_addTo, Entry.bytesIn_create, usage_timed, usage_ticked]
  by_cases own : tier = place
  · subst own
    rw [if_pos rfl]
    exact fits
  · rw [if_neg own]
    omega

theorem lookup_insert {size : Nat} (asked : String) :
    (insert setup state key size tier lifetime?).lookup asked = if asked = key
      then some (.create key size tier lifetime? (state.tick + 1) (setup.clock state.readings))
      else state.lookup asked :=
  lookup_enroll asked

theorem total_insert {size : Nat} (fresh : state.lookup key = none) :
    (CacheState.insert setup state key size tier lifetime?).total = state.total + size := by
  have still : state.ticked.timed.lookup key = none := fresh
  exact total_enroll still

theorem Writes.restrained {answer : Bool}
    (writes : Writes setup key value lifetime? state answer final) (start : state.Tallied setup) :
    Restrained setup state final := by
  cases writes with
  | unserializable => exact (Restrained.refl start).recorded _ _
  | tooLarge _ room => exact ((room.restrained start).counted _).recorded _ _
  | refused _ _ room refuses =>
      cases refuses
      exact (((room.restrained start).inWorld _).counted _).recorded _ _
  | @written _ _ _ world _ _ _ room fits _ replaces =>
      have roomy := (room.restrained start).inWorld world
      exact (roomy.trans (replaces.restrained roomy.tallied fits _)).recorded _ _

theorem Writes.balanced {answer : Bool} (writes : Writes setup key value lifetime? state answer final)
    (start : state.Balanced setup) : final.Balanced setup :=
  (writes.restrained start.toTallied).balanced start

theorem Writes.total_le {answer : Bool} (writes : Writes setup key value lifetime? state answer final)
    (start : state.Tallied setup) : final.total ≤ state.total + value.weight := by
  cases writes with
  | unserializable => exact Nat.le_add_right _ _
  | tooLarge _ room => exact Nat.le_trans (room.total_le start) (Nat.le_add_right _ _)
  | refused _ _ room refuses =>
      cases refuses
      exact Nat.le_trans (room.total_le start) (Nat.le_add_right _ _)
  | written sized _ room _ _ replaces =>
      have roomy := room.total_le start
      have less := replaces.total_le ((room.tallied start).inWorld _)
      rw [total_inWorld] at less
      rw [total_recorded, total_insert replaces.lookup, Value.weight_eq sized]
      omega

theorem Empties.usage {tiers : List Tier} (empties : Empties setup tiers state final) (tier : Tier) :
    final.usage.get tier = if tier ∈ tiers
      then { state.usage.get tier with entries := 0, bytes := 0 } else state.usage.get tier := by
  induction empties with
  | nil => simp
  | @cons first _ _ _ _ _ _ _ induction =>
      rw [induction]
      by_cases own : tier = first
      · subst own
        simp
      · simp [own]

theorem Clears.restrained (clears : Clears setup state final) (start : state.Tallied setup) :
    Restrained setup state final := by
  cases clears with
  | @cleared emptied empties =>
      have usage (tier : Tier) : emptied.usage.get tier =
          { state.usage.get tier with entries := 0, bytes := 0 } := by
        rw [empties.usage]
        exact if_pos (by cases tier <;> decide)
      refine Tallied.restrained (.of_weights List.nodup_nil nofun ?_ ?_ ?_) ?_
      all_goals
        intro tier
        simp only [usage]
      · rfl
      · rfl
      · exact start.capacity tier
      · exact Nat.zero_le _

theorem Clears.balanced (clears : Clears setup state final) (start : state.Balanced setup) :
    final.Balanced setup :=
  (clears.restrained start.toTallied).balanced start

end CacheState

end TierVault

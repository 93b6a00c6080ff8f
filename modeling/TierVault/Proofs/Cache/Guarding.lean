import TierVault.Proofs.Cache.Opening
import TierVault.Proofs.Store.Faithful

/-!
Predicates of the stores' world that a cache keeps.

A cache hands to a store only what a caller put, or what a store answered before. So a predicate that each store
keeps as long as it is given allowed values is kept by the whole cache, whatever it moves, evicts or restores.
-/

namespace TierVault

open TierVault.Action

variable {World : Type}

/-- The stores keep the predicate, as long as nothing is put but what is allowed, and answer nothing else. -/
structure CacheSetup.Guards (setup : CacheSetup World) (allowed : String → Value → Prop)
    (kept : World → Prop) : Prop where
  get : ∀ tier key world answer after,
    ((setup.stores.get tier).get key).run world = .ok answer after → kept world →
      kept after ∧ ∀ value, answer = .ok (some value) → allowed key value
  put : ∀ tier key value world answer after,
    ((setup.stores.get tier).put key value).run world = .ok answer after → kept world →
      allowed key value → kept after
  delete : ∀ tier key world answer after,
    ((setup.stores.get tier).delete key).run world = .ok answer after → kept world → kept after
  clear : ∀ tier world answer after,
    (setup.stores.get tier).clear.run world = .ok answer after → kept world → kept after
  entries : ∀ tier world answer after,
    (setup.stores.get tier).entries.run world = .ok answer after → kept world → kept after

namespace CacheState

variable {setup : CacheSetup World} {allowed : String → Value → Prop} {kept : World → Prop}
  {state final : CacheState World} {key : String} {entry : Entry} {value : Value} {tier target : Tier}
  {hottest : Tier} {keys : List String} {size : Nat} {lifetime? : Option Nat}

section Guarded

variable (guards : setup.Guards allowed kept)

include guards

/-! ## After each outcome -/

theorem Moves.guarded (moves : Moves setup key entry value target state final)
    (fits : allowed key value) (holds : kept state.world) : kept final.world := by
  cases moves with
  | followed _ put deleted =>
      exact guards.delete _ _ _ _ _ deleted (guards.put _ _ _ _ _ _ put holds fits)

theorem Refuses.guarded (refuses : Refuses setup key size value target state final)
    (fits : allowed key value) (holds : kept state.world) : kept final.world := by
  cases refuses with
  | because _ put => exact guards.put _ _ _ _ _ _ put holds fits

theorem Retreat.guarded (retreat : Retreat setup hottest keys state final)
    (holds : kept state.world) : kept final.world := by
  induction retreat with
  | stay => exact holds
  | read _ get induction => exact (guards.get _ _ _ _ _ get (induction holds)).1
  | evict _ _ _ _ deleted induction => exact guards.delete _ _ _ _ _ deleted (induction holds)
  | stuck _ _ _ _ _ get _ refuses induction inner =>
      obtain ⟨stays, fits⟩ := guards.get _ _ _ _ _ get (induction holds)
      exact refuses.guarded guards (fits _ rfl) (inner stays)
  | demote _ _ _ _ _ get _ moves induction inner =>
      obtain ⟨stays, fits⟩ := guards.get _ _ _ _ _ get (induction holds)
      have moved := moves.guarded guards (fits _ rfl) (inner stays)
      exact moved

theorem Removes.guarded {removed : Bool} (removes : Removes setup key state removed final)
    (holds : kept state.world) : kept final.world := by
  cases removes with
  | missing => exact holds
  | removed _ deleted => exact guards.delete _ _ _ _ _ deleted holds

theorem RemovesAll.guarded (removes : RemovesAll setup keys state final)
    (holds : kept state.world) : kept final.world := by
  induction removes with
  | nil => exact holds
  | cons first _ induction => exact induction (first.guarded guards holds)

theorem Rises.guarded (rises : Rises setup key entry value state final)
    (fits : allowed key value) (holds : kept state.world) : kept final.world := by
  cases rises with
  | stays room => exact room.guarded guards holds
  | refused _ room refuses => exact refuses.guarded guards fits (room.guarded guards holds)
  | rises _ room moves =>
      have moved := moves.guarded guards fits (room.guarded guards holds)
      exact moved

/-- A read answers an allowed value, or none. -/
theorem Reads.guarded {answer : Option Value} (reads : Reads setup key state answer final)
    (holds : kept state.world) : kept final.world ∧ ∀ value, answer = some value → allowed key value := by
  cases reads with
  | missing => exact ⟨holds, nofun⟩
  | expired _ _ removed =>
      have gone := removed.guarded guards (show kept state.timed.world from holds)
      exact ⟨gone, nofun⟩
  | stale _ _ get => exact ⟨(guards.get _ _ _ _ _ get holds).1, nofun⟩
  | @failed _ _ world _ _ _ get removed =>
      have read : kept (state.timed.inWorld world).world := (guards.get _ _ _ _ _ get holds).1
      have gone := removed.guarded guards read
      exact ⟨gone, nofun⟩
  | @hit entry value world _ _ _ get rises =>
      obtain ⟨read, fits⟩ := guards.get _ _ _ _ _ get holds
      have here : kept (touch setup (state.timed.inWorld world) key entry).hit.world := read
      have risen := rises.guarded guards (fits _ rfl) here
      refine ⟨risen, ?_⟩
      rintro _ ⟨⟩
      exact fits _ rfl

theorem Replaces.guarded (replaces : Replaces setup key tier state final)
    (holds : kept state.world) : kept final.world := by
  cases replaces with
  | nothing => exact holds
  | here => exact holds
  | elsewhere _ _ deleted => exact guards.delete _ _ _ _ _ deleted holds

theorem Writes.guarded {answer : Bool} (writes : Writes setup key value lifetime? state answer final)
    (fits : allowed key value) (holds : kept state.world) : kept final.world := by
  cases writes with
  | unserializable => exact holds
  | tooLarge _ room =>
      have roomy := room.guarded guards holds
      exact roomy
  | refused _ _ room refuses =>
      have failed := refuses.guarded guards fits (room.guarded guards holds)
      exact failed
  | @written _ _ roomy world _ _ _ room _ put replaces =>
      have written : kept (roomy.inWorld world).world :=
        guards.put _ _ _ _ _ _ put (room.guarded guards holds) fits
      have replaced := replaces.guarded guards written
      exact replaced

theorem Cleans.guarded {count : Nat} (cleans : Cleans setup state count final)
    (holds : kept state.world) : kept final.world := by
  cases cleans with
  | cleaned removed =>
      have gone := removed.guarded guards (show kept state.timed.world from holds)
      exact gone

theorem Deletes.guarded {removed : Bool} (deletes : Deletes setup key state removed final)
    (holds : kept state.world) : kept final.world := by
  cases deletes with
  | deleted removes =>
      have gone := removes.guarded guards holds
      exact gone

theorem Has.guarded {answer : Bool} (has : Has setup key state answer final)
    (holds : kept state.world) : kept final.world := by
  cases has with
  | missing => exact holds
  | expired _ _ removed =>
      have gone := removed.guarded guards (show kept state.timed.world from holds)
      exact gone
  | present => exact holds

theorem Empties.guarded {tiers : List Tier} (empties : Empties setup tiers state final)
    (holds : kept state.world) : kept final.world := by
  induction empties with
  | nil => exact holds
  | cons cleared _ induction => exact induction (guards.clear _ _ _ _ cleared holds)

theorem Clears.guarded (clears : Clears setup state final) (holds : kept state.world) :
    kept final.world := by
  cases clears with
  | cleared empties =>
      have bare := empties.guarded guards holds
      exact bare

/-- Every call keeps the predicate, if the value that it puts is allowed. -/
theorem guarded_of_outcome {call : CacheCall} {answer : call.Answer}
    (outcome : call.Outcome setup state answer final)
    (fits : ∀ key value lifetime?, call = .put key value lifetime? → allowed key value)
    (holds : kept state.world) : kept final.world := by
  cases call with
  | put key value lifetime? => exact Writes.guarded guards outcome (fits _ _ _ rfl) holds
  | get key => exact (Reads.guarded guards outcome holds).1
  | delete key => exact Deletes.guarded guards outcome holds
  | has key => exact Has.guarded guards outcome holds
  | clear => exact Clears.guarded guards outcome holds
  | cleanupExpired => exact Cleans.guarded guards outcome holds
  | reclaimExpired =>
      cases outcome with
      | reclaimed cleans => exact cleans.guarded guards holds

end Guarded

end CacheState

/-! ## What the stores hold -/

namespace TieredCache

open CacheState

variable {setup : CacheSetup World} {allowed : String → Value → Prop} {kept : World → Prop}
  {state : CacheState World} {tier : Tier}

variable (guards : setup.Guards allowed kept)

include guards

theorem leads_adopt_guarded (tallied : state.Tallied setup) (holds : kept state.world)
    (key : String) (size : Nat) :
    Leads AnyFault (adopt setup tier key size) state fun _ final =>
      final.Tallied setup ∧ kept final.world := by
  simp only [adopt, leads_bind, leads_lookup]
  cases found : state.lookup key with
  | some entry =>
      simp only [leads_bind, leads_pure]
      refine leads_discardPayload (steady_of_any.mono fun _ _ => trivial) trivial ?_
      intro answer world deleted _
      exact ⟨tallied.inWorld world, guards.delete _ _ _ _ _ deleted holds⟩
  | none =>
      simp only [leads_bind, leads_pure]
      refine leads_insertEntry (fun checked => absurd trivial checked) ⟨?_, holds⟩
      exact (tallied.ticked.timed).enroll rfl found

theorem leads_survey_guarded (tallied : state.Tallied setup) (holds : kept state.world) :
    Leads AnyFault (survey setup tier) state fun _ final =>
      final.Tallied setup ∧ kept final.world := by
  simp only [survey, leads_bind]
  have any {Result : Type} (action : StoreAction World Result) :
      action.Keeps AnyFault fun _ => True := fun _ _ => leads_any.mpr fun _ _ _ => trivial
  refine leads_onStore (any _) trivial ?_
  intro answer world listed _
  have start : (state.inWorld world).Tallied setup ∧ kept (state.inWorld world).world :=
    ⟨tallied.inWorld world, guards.entries _ _ _ _ listed holds⟩
  cases answer with
  | error error => exact start
  | ok stored =>
      simp only [leads_bind, leads_pure]
      let holding (middle : CacheState World) : Prop := middle.Tallied setup ∧ kept middle.world
      have begun : holding (state.inWorld world) := start
      apply leads_mapM ?_ begun
      rintro ⟨key, size⟩ _ middle ⟨tallied, holds⟩
      exact leads_adopt_guarded guards tallied holds key size

/-- What the stores tell is adopted, and what they hold twice is deleted. -/
theorem leads_restore_guarded (tallied : state.Tallied setup) (holds : kept state.world) :
    Leads AnyFault (restore setup) state fun _ final =>
      final.Tallied setup ∧ kept final.world := by
  simp only [restore_eq, leads_bind, leads_pure]
  let holding (middle : CacheState World) : Prop := middle.Tallied setup ∧ kept middle.world
  have start : holding state := ⟨tallied, holds⟩
  apply leads_mapM ?_ start
  rintro tier _ middle ⟨tallied, holds⟩
  exact leads_survey_guarded guards tallied holds

end TieredCache

/-! ## One value of a key -/

/-- Stores that do not make payloads up, also where they are emptied or tell what they hold. -/
structure CacheSetup.Truthful (setup : CacheSetup World) (held : Holding World) : Prop
    extends setup.Faithful held where
  clear : ∀ tier world answer after,
    (setup.stores.get tier).clear.run world = .ok answer after → held.Loses world after
  entries : ∀ tier world answer after,
    (setup.stores.get tier).entries.run world = .ok answer after → held.Loses world after

/-- Whatever is held under the key is that value. -/
def Holding.Only (held : Holding World) (key : String) (value : Value) (world : World) : Prop :=
  ∀ tier found, held world tier key found → found = value

theorem Holding.Only.loses {held : Holding World} {key : String} {value : Value} {before after : World}
    (only : held.Only key value before) (loses : held.Loses before after) :
    held.Only key value after :=
  fun tier found there => only tier found (loses tier key found there)

/-- A key under which one value is held keeps that value, as long as no other is put there. -/
theorem CacheSetup.Truthful.guards {setup : CacheSetup World} {held : Holding World}
    (truthful : setup.Truthful held) (key : String) (value : Value) :
    setup.Guards (fun asked found => asked = key → found = value) (held.Only key value) where
  get tier asked world answer after ended only := by
    obtain ⟨loses, told⟩ := truthful.get _ _ _ _ _ ended
    refine ⟨only.loses loses, fun found answered same => ?_⟩
    exact only tier found (same ▸ told found answered)
  put tier asked found world answer after ended only fits := by
    cases answer with
    | error error => exact only.loses (truthful.put_failed _ _ _ _ _ _ ended)
    | ok _ =>
        obtain ⟨own, others⟩ := truthful.put _ _ _ _ _ ended
        intro place other there
        by_cases same : place = tier ∧ key = asked
        · obtain ⟨rfl, rfl⟩ := same
          exact (own other there).trans (fits rfl)
        · exact only place other (others place key other (Classical.not_and_iff_not_or_not.mp same) there)
  delete tier asked world answer after ended only :=
    only.loses (truthful.delete _ _ _ _ _ ended)
  clear tier world answer after ended only := only.loses (truthful.clear _ _ _ _ ended)
  entries tier world answer after ended only := only.loses (truthful.entries _ _ _ _ ended)

/-! ## Side by side -/

variable {Local : Type}

/-- The same of a single store. -/
structure Store.Truthful (store : Store Local) (held : Local → String → Value → Prop) : Prop
    extends store.Faithful held where
  clear : ∀ world answer after, store.clear.run world = .ok answer after →
    ∀ asked found, held after asked found → held world asked found
  entries : ∀ world answer after, store.entries.run world = .ok answer after →
    ∀ asked found, held after asked found → held world asked found

theorem CacheSetup.truthful_of_sideBySide {setup : CacheSetup (PerTier Local)}
    {stores : PerTier (Store Local)} (sideBySide : setup.stores = stores.sideBySide)
    (held : Local → String → Value → Prop) (truthful : ∀ tier, (stores.get tier).Truthful held) :
    setup.Truthful fun worlds tier => held (worlds.get tier) := by
  have store := sideBySide ▸ stores.get_sideBySide
  have faithful := faithful_of_sideBySide sideBySide held fun tier => (truthful tier).toFaithful
  refine { faithful with clear := ?_, entries := ?_ }
  · intro tier worlds answer after ended place asked found there
    rw [store] at ended
    obtain ⟨inner, called, rfl⟩ := StoreAction.run_within ended
    rcases PerTier.holding_set there with ⟨rfl, here⟩ | ⟨-, elsewhere⟩
    · exact (truthful place).clear _ _ _ called asked found here
    · exact elsewhere
  · intro tier worlds answer after ended place asked found there
    rw [store] at ended
    obtain ⟨inner, called, rfl⟩ := StoreAction.run_within ended
    rcases PerTier.holding_set there with ⟨rfl, here⟩ | ⟨-, elsewhere⟩
    · exact (truthful place).entries _ _ _ called asked found here
    · exact elsewhere

theorem MemoryStore.truthful (budget : Nat) : (MemoryStore.store budget).Truthful Holds := by
  refine { MemoryStore.faithful budget with clear := ?_, entries := ?_ }
  · intro world answer after ended asked found there
    cases run_clear.symm.trans ended
    obtain ⟨resident, impossible, -⟩ := there
    cases impossible
  · intro world answer after ended asked found there
    cases ended
    exact there

theorem CacheSetup.inMemory_truthful (tiers : TierConfig) (defaultLifetime? : Option Nat)
    (clock : Nat → Nat) :
    (CacheSetup.inMemory tiers defaultLifetime? clock).Truthful
      fun worlds tier => MemoryStore.Holds (worlds.get tier) := by
  have sideBySide : (CacheSetup.inMemory tiers defaultLifetime? clock).stores =
      PerTier.sideBySide (.ofFunction fun tier => MemoryStore.store (tiers.capacity tier)) := rfl
  refine truthful_of_sideBySide sideBySide MemoryStore.Holds fun tier => ?_
  rw [PerTier.get_ofFunction]
  exact MemoryStore.truthful _

end TierVault

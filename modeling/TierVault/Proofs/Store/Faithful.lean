import TierVault.Proofs.Store.Memory
import TierVault.Proofs.Store.SideBySide

/-!
Stores that do not make payloads up.

They may fail and may lose payloads at any call, but a value that they answer is one that they hold, and a
value that they hold is one that was put.
-/

namespace TierVault

variable {World Local : Type}

/-- What stores hold: in a world, in a tier, the values under a key. -/
abbrev Holding (World : Type) := World → Tier → String → Value → Prop

/-- No payload is there that was not there before. -/
def Holding.Loses (held : Holding World) (before after : World) : Prop :=
  ∀ tier key value, held after tier key value → held before tier key value

/-- The stores answer what they hold, and hold nothing but what was put. Payloads may be lost by any call, and
by calls that fail. -/
structure CacheSetup.Faithful (setup : CacheSetup World) (held : Holding World) : Prop where
  get : ∀ tier key world answer after,
    ((setup.stores.get tier).get key).run world = .ok answer after →
      held.Loses world after ∧ ∀ value, answer = .ok (some value) → held world tier key value
  put : ∀ tier key value world after,
    ((setup.stores.get tier).put key value).run world = .ok (.ok ()) after →
      (∀ found, held after tier key found → found = value) ∧
        ∀ place asked found, (place ≠ tier ∨ asked ≠ key) →
          held after place asked found → held world place asked found
  put_failed : ∀ tier key value world error after,
    ((setup.stores.get tier).put key value).run world = .ok (.error error) after →
      held.Loses world after
  delete : ∀ tier key world answer after,
    ((setup.stores.get tier).delete key).run world = .ok answer after → held.Loses world after

/-- The same of a single store. -/
structure Store.Faithful (store : Store Local) (held : Local → String → Value → Prop) : Prop where
  get : ∀ key world answer after, (store.get key).run world = .ok answer after →
    (∀ asked found, held after asked found → held world asked found) ∧
      ∀ value, answer = .ok (some value) → held world key value
  put : ∀ key value world after, (store.put key value).run world = .ok (.ok ()) after →
    (∀ found, held after key found → found = value) ∧
      ∀ asked found, asked ≠ key → held after asked found → held world asked found
  put_failed : ∀ key value world error after,
    (store.put key value).run world = .ok (.error error) after →
      ∀ asked found, held after asked found → held world asked found
  delete : ∀ key world answer after, (store.delete key).run world = .ok answer after →
    ∀ asked found, held after asked found → held world asked found

/-! ## Side by side -/

theorem PerTier.holding_set {held : Local → String → Value → Prop} {worlds : PerTier Local}
    {tier place : Tier} {after : Local} {asked : String} {found : Value}
    (there : held ((worlds.set tier after).get place) asked found) :
    (place = tier ∧ held after asked found) ∨
      (place ≠ tier ∧ held (worlds.get place) asked found) := by
  by_cases same : place = tier
  · subst same
    rw [get_set_same] at there
    exact .inl ⟨rfl, there⟩
  · rw [get_set_other _ _ same] at there
    exact .inr ⟨same, there⟩

theorem CacheSetup.faithful_of_sideBySide {setup : CacheSetup (PerTier Local)}
    {stores : PerTier (Store Local)} (sideBySide : setup.stores = stores.sideBySide)
    (held : Local → String → Value → Prop)
    (faithful : ∀ tier, (stores.get tier).Faithful held) :
    setup.Faithful fun worlds tier => held (worlds.get tier) := by
  have store := sideBySide ▸ stores.get_sideBySide
  have loses {worlds : PerTier Local} {tier : Tier} {after : Local}
      (fewer : ∀ asked found, held after asked found → held (worlds.get tier) asked found) :
      Holding.Loses (fun worlds tier => held (worlds.get tier)) worlds (worlds.set tier after) := by
    intro place asked found there
    rcases PerTier.holding_set there with ⟨rfl, here⟩ | ⟨-, elsewhere⟩
    · exact fewer asked found here
    · exact elsewhere
  refine ⟨?_, ?_, ?_, ?_⟩
  · intro tier key worlds answer after ended
    rw [store] at ended
    rcases StoreAction.run_within ended with ⟨inner, called, rfl⟩
    have told := (faithful tier).get _ _ _ _ called
    exact ⟨loses told.1, told.2⟩
  · intro tier key value worlds after ended
    rw [store] at ended
    rcases StoreAction.run_within ended with ⟨inner, called, rfl⟩
    have told := (faithful tier).put _ _ _ _ called
    constructor
    · intro found there
      rw [PerTier.get_set_same] at there
      exact told.1 found there
    · intro place asked found different there
      rcases PerTier.holding_set there with ⟨rfl, here⟩ | ⟨-, elsewhere⟩
      · refine told.2 asked found ?_ here
        rcases different with wrong | different
        · exact absurd rfl wrong
        · exact different
      · exact elsewhere
  · intro tier key value worlds error after ended
    rw [store] at ended
    rcases StoreAction.run_within ended with ⟨inner, called, rfl⟩
    exact loses ((faithful tier).put_failed _ _ _ _ _ called)
  · intro tier key worlds answer after ended
    rw [store] at ended
    rcases StoreAction.run_within ended with ⟨inner, called, rfl⟩
    exact loses ((faithful tier).delete _ _ _ _ called)

/-! ## In memory -/

namespace MemoryStore

def Holds (world : MemoryWorld) (key : String) (value : Value) : Prop :=
  ∃ resident ∈ world, resident.key = key ∧ resident.item = value

theorem faithful (budget : Nat) : (MemoryStore.store budget).Faithful Holds := by
  refine ⟨?_, ?_, ?_, ?_⟩
  · intro key world answer after ended
    rw [run_get] at ended
    cases ended
    constructor
    · rintro asked found ⟨resident, member, own, same⟩
      exact ⟨resident, (RecencyList.mem_use_id.mp member).1, own, same⟩
    · intro value answered
      cases there : RecencyList.find? key world with
      | none =>
          rw [there] at answered
          cases answered
      | some resident =>
          rw [there] at answered
          cases answered
          have known := RecencyList.find?_some there
          exact ⟨resident, known.1, known.2, rfl⟩
  · intro key value world after ended
    rcases put_cases ended with ⟨⟨error, impossible⟩, -⟩ | ⟨-, size, -, rfl⟩
    · cases impossible
    constructor
    · rintro found ⟨resident, member, own, rfl⟩
      rcases RecencyList.mem_put member with rfl | ⟨-, different⟩
      · rfl
      · exact absurd own different
    · rintro asked found different ⟨resident, member, own, rfl⟩
      rcases RecencyList.mem_put member with rfl | ⟨there, -⟩
      · exact absurd own (Ne.symm different)
      · exact ⟨resident, there, own, rfl⟩
  · intro key value world error after ended asked found there
    rcases put_cases ended with ⟨-, rfl⟩ | ⟨impossible, -⟩
    · exact there
    · cases impossible
  · rintro key world answer after ended asked found ⟨resident, member, own, same⟩
    rw [run_delete] at ended
    cases ended
    exact ⟨resident, (RecencyList.mem_remove.mp member).1, own, same⟩

end MemoryStore

/-! ## With calls that fail -/

namespace Switched

variable {Result : Type}

theorem run_guarded {switch : Switch} {action : StoreAction (Switched World) Result}
    {world after : Switched World} {answer : Except StoreError Result}
    (ended : (guarded switch action).run world = .ok answer after) :
    (answer = .error (.io .other) ∧ after = world) ∨ action.run world = .ok answer after := by
  unfold guarded at ended
  rw [StoreAction.run_getThe_bind] at ended
  split at ended
  · cases ended
    exact .inl ⟨rfl, rfl⟩
  · exact .inr ended

theorem faithful {inner : Store World} {held : World → String → Value → Prop}
    (within : inner.Faithful held) :
    (Switched.store inner).Faithful fun world => held world.inner := by
  refine ⟨?_, ?_, ?_, ?_⟩
  · intro key world answer after ended
    rcases run_guarded ended with ⟨rfl, rfl⟩ | passed
    · exact ⟨fun _ _ there => there, nofun⟩
    rw [StoreAction.run_getThe_bind] at passed
    split at passed
    · cases passed
      exact ⟨fun _ _ there => there, nofun⟩
    · rcases StoreAction.run_within passed with ⟨final, called, rfl⟩
      exact within.get _ _ _ _ called
  · intro key value world after ended
    rcases run_guarded ended with ⟨impossible, -⟩ | passed
    · cases impossible
    · rcases StoreAction.run_within passed with ⟨final, called, rfl⟩
      exact within.put _ _ _ _ called
  · intro key value world error after ended
    rcases run_guarded ended with ⟨-, rfl⟩ | passed
    · exact fun _ _ there => there
    · rcases StoreAction.run_within passed with ⟨final, called, rfl⟩
      exact within.put_failed _ _ _ _ _ called
  · intro key world answer after ended
    rcases run_guarded ended with ⟨-, rfl⟩ | passed
    · exact fun _ _ there => there
    · rcases StoreAction.run_within passed with ⟨final, called, rfl⟩
      exact within.delete _ _ _ _ called

end Switched

theorem CacheSetup.switched_faithful (tiers : TierConfig) (defaultLifetime? : Option Nat)
    (clock : Nat → Nat) :
    (CacheSetup.switched tiers defaultLifetime? clock).Faithful
      fun worlds tier => MemoryStore.Holds (worlds.get tier).inner := by
  have sideBySide : (CacheSetup.switched tiers defaultLifetime? clock).stores =
      PerTier.sideBySide
        (.ofFunction fun tier => Switched.store (MemoryStore.store (tiers.capacity tier))) := rfl
  refine faithful_of_sideBySide sideBySide
    (fun world : Switched MemoryWorld => MemoryStore.Holds world.inner) fun tier => ?_
  rw [PerTier.get_ofFunction]
  exact Switched.faithful (MemoryStore.faithful _)

end TierVault

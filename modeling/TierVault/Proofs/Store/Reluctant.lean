import TierVault.Proofs.Cache.Steps
import TierVault.Proofs.Store.Faithful

/-!
Stores that may refuse to delete.

All that such a store holds it tells, and whatever is cleared or deleted is gone, unless the store refused. That
it has refused a delete is not forgotten.
-/

namespace TierVault

variable {World Local Result : Type}

/-- In a world, in a tier: the keys of which a delete was refused. -/
abbrev Refusals (World : Type) := World → Tier → String → Prop

/-- Reads answer what is held, and lose nothing. A delete or a clear loses what it is asked to lose, but a delete
may be refused. Every key of which something is held is listed, once. -/
structure CacheSetup.Reluctant (setup : CacheSetup World) (faults : Fault → Prop) (sound : World → Prop)
    (held : Holding World) (refused : Refusals World) : Prop where
  faithful : setup.Faithful held
  steady : setup.Steady faults sound
  recalls : ∀ tier key, setup.Steady Action.AnyFault fun world => refused world tier key
  get : ∀ tier key world answer after, sound world →
    ((setup.stores.get tier).get key).run world = .ok answer after →
      held.Loses after world ∧ ∀ value, held world tier key value → answer = .ok (some value)
  delete : ∀ tier key world answer after, sound world →
    ((setup.stores.get tier).delete key).run world = .ok answer after →
      (∀ value, held after tier key value → refused after tier key) ∧
        ∀ place asked value, (place ≠ tier ∨ asked ≠ key) →
          held world place asked value → held after place asked value
  clear : ∀ tier world answer after, sound world →
    (setup.stores.get tier).clear.run world = .ok answer after →
      held.Loses world after ∧ ∀ key value, ¬held after tier key value
  entries : ∀ tier world, sound world → ∃ listed after,
    (setup.stores.get tier).entries.run world = .ok (.ok listed) after ∧ sound after ∧
      (listed.map Prod.fst).Nodup ∧
        (∀ key, key ∈ listed.map Prod.fst ↔ ∃ value, held world tier key value) ∧
          ∀ place key value, held after place key value ↔ held world place key value

theorem CacheSetup.Steady.congr {setup : CacheSetup World} {faults : Fault → Prop}
    {sound other : World → Prop} (steady : setup.Steady faults sound)
    (same : ∀ world, sound world ↔ other world) : setup.Steady faults other :=
  funext (fun world => propext (same world)) ▸ steady

/-- What of the same goes for a single store. -/
structure Store.Reluctant (store : Store Local) (sound : Local → Prop)
    (held : Local → String → Value → Prop) (refused : Local → String → Prop) : Prop where
  get : ∀ key world answer after, sound world → (store.get key).run world = .ok answer after →
    (∀ asked value, held world asked value → held after asked value) ∧
      ∀ value, held world key value → answer = .ok (some value)
  delete : ∀ key world answer after, sound world → (store.delete key).run world = .ok answer after →
    (∀ value, held after key value → refused after key) ∧
      ∀ asked value, asked ≠ key → held world asked value → held after asked value
  clear : ∀ world answer after, sound world → store.clear.run world = .ok answer after →
    ∀ key value, ¬held after key value
  entries : ∀ world, sound world → ∃ listed, store.entries.run world = .ok (.ok listed) world ∧
    (listed.map Prod.fst).Nodup ∧ ∀ key, key ∈ listed.map Prod.fst ↔ ∃ value, held world key value

theorem PerTier.set_get (worlds : PerTier Local) (tier : Tier) :
    worlds.set tier (worlds.get tier) = worlds := by
  cases tier <;> rfl

/-- What is held elsewhere stays when the world of one tier changes. -/
theorem PerTier.holding_of_set {held : Local → String → Value → Prop} {worlds : PerTier Local}
    {tier place : Tier} {after : Local} {asked : String} {found : Value}
    (there : held (worlds.get place) asked found)
    (here : place = tier → held (worlds.get tier) asked found → held after asked found) :
    held ((worlds.set tier after).get place) asked found := by
  by_cases same : place = tier
  · subst same
    rw [get_set_same]
    exact here rfl there
  · rwa [get_set_other _ _ same]

theorem CacheSetup.reluctant_of_sideBySide {setup : CacheSetup (PerTier Local)} {faults : Fault → Prop}
    {stores : PerTier (Store Local)} (sideBySide : setup.stores = stores.sideBySide)
    (sound : Local → Prop) (held : Local → String → Value → Prop) (refused : Local → String → Prop)
    (faithful : setup.Faithful fun worlds tier => held (worlds.get tier))
    (steady : setup.Steady faults fun worlds => ∀ tier, sound (worlds.get tier))
    (recalls : ∀ tier key, setup.Steady Action.AnyFault fun worlds => refused (worlds.get tier) key)
    (reluctant : ∀ tier, (stores.get tier).Reluctant sound held refused) :
    setup.Reluctant faults (fun worlds => ∀ tier, sound (worlds.get tier))
      (fun worlds tier => held (worlds.get tier)) (fun worlds tier => refused (worlds.get tier)) := by
  have store := sideBySide ▸ stores.get_sideBySide
  refine ⟨faithful, steady, recalls, ?_, ?_, ?_, ?_⟩
  · intro tier key worlds answer after isSound ended
    rw [store] at ended
    rcases StoreAction.run_within ended with ⟨inner, called, rfl⟩
    have told := (reluctant tier).get _ _ _ _ (isSound tier) called
    exact ⟨fun _ asked found there => PerTier.holding_of_set there fun _ => told.1 asked found, told.2⟩
  · intro tier key worlds answer after isSound ended
    rw [store] at ended
    rcases StoreAction.run_within ended with ⟨inner, called, rfl⟩
    have told := (reluctant tier).delete _ _ _ _ (isSound tier) called
    constructor
    · rw [PerTier.get_set_same]
      exact told.1
    · intro place asked found apart there
      refine PerTier.holding_of_set there fun same => told.2 asked found ?_
      exact apart.resolve_left (not_not_intro same)
  · intro tier worlds answer after isSound ended
    rw [store] at ended
    rcases StoreAction.run_within ended with ⟨inner, called, rfl⟩
    have bare := (reluctant tier).clear _ _ _ (isSound tier) called
    constructor
    · intro place asked found there
      rcases PerTier.holding_set there with ⟨rfl, here⟩ | ⟨-, elsewhere⟩
      · exact absurd here (bare asked found)
      · exact elsewhere
    · rw [PerTier.get_set_same]
      exact bare
  · intro tier worlds isSound
    rcases (reluctant tier).entries _ (isSound tier) with ⟨listed, told, distinct, all⟩
    have asked : (setup.stores.get tier).entries.run worlds =
        .ok (.ok listed) (worlds.set tier (worlds.get tier)) := by
      rw [store]
      exact StoreAction.run_within_of_ok told
    rw [PerTier.set_get] at asked
    exact ⟨listed, worlds, asked, isSound, distinct, all, fun _ _ _ => Iff.rfl⟩

/-! ## With calls that fail -/

namespace Switched

variable {switch : Switch} {world after : Switched World}

theorem run_guarded_of_off {action : StoreAction (Switched World) Result} (off : switch ∉ world.on) :
    (guarded switch action).run world = action.run world := by
  unfold guarded
  rw [StoreAction.run_getThe_bind, if_neg (by simpa using off)]

theorem run_guarded_of_on {action : StoreAction (Switched World) Result} (on : switch ∈ world.on) :
    (guarded switch action).run world = .ok (.error (.io .other)) world := by
  unfold guarded
  rw [StoreAction.run_getThe_bind, if_pos (by simpa using on)]
  rfl

/-- The calls leave the switches as they are, and what is inside as it should be. -/
def Spares (fact : World → Prop) (action : StoreAction (Switched World) Result) : Prop :=
  ∀ world answer after, action.run world = .ok answer after →
    after.on = world.on ∧ (fact world.inner → fact after.inner)

variable {fact : World → Prop}

theorem spares_inside {action : StoreAction World Result}
    (keeps : ∀ world answer after, action.run world = .ok answer after → fact world → fact after) :
    Spares fact (inside action) := by
  intro world answer after ended
  rcases StoreAction.run_within ended with ⟨inner, called, rfl⟩
  exact ⟨rfl, keeps _ _ _ called⟩

theorem Spares.guarded {action : StoreAction (Switched World) Result} (spares : Spares fact action)
    (switch : Switch) : Spares fact (guarded switch action) := by
  intro world answer after ended
  rcases run_guarded ended with ⟨-, rfl⟩ | passed
  · exact ⟨rfl, id⟩
  · exact spares world answer after passed

end Switched

/-- The calls on the store do not undo the fact. -/
structure Store.Preserves (store : Store Local) (fact : Local → Prop) : Prop where
  get : ∀ key world answer after, (store.get key).run world = .ok answer after → fact world → fact after
  put : ∀ key value world answer after,
    (store.put key value).run world = .ok answer after → fact world → fact after
  delete : ∀ key world answer after,
    (store.delete key).run world = .ok answer after → fact world → fact after
  clear : ∀ world answer after, store.clear.run world = .ok answer after → fact world → fact after

theorem Store.preserves_true (store : Store Local) : store.Preserves fun _ => True :=
  ⟨fun _ _ _ _ _ _ => trivial, fun _ _ _ _ _ _ _ => trivial, fun _ _ _ _ _ _ => trivial,
    fun _ _ _ _ _ => trivial⟩

theorem MemoryStore.preserves_distinct (budget : Nat) :
    (MemoryStore.store budget).Preserves RecencyList.Distinct := by
  refine ⟨?_, ?_, ?_, ?_⟩
  · intro key world answer after ended distinct
    rw [run_get] at ended
    cases ended
    exact distinct.use_id key
  · intro key value world answer after ended distinct
    rcases put_cases ended with ⟨-, rfl⟩ | ⟨-, size, -, rfl⟩
    · exact distinct
    · exact distinct.put budget _
  · intro key world answer after ended distinct
    rw [run_delete] at ended
    cases ended
    exact distinct.remove key
  · intro world answer after ended distinct
    rw [run_clear] at ended
    cases ended
    exact List.nodup_nil

namespace Switched

theorem spares_get {inner : Store World} {fact : World → Prop} (preserves : inner.Preserves fact)
    (key : String) : Spares fact ((Switched.store inner).get key) := by
  refine Spares.guarded (fun world answer after ended => ?_) .get
  rw [StoreAction.run_getThe_bind] at ended
  split at ended
  · cases ended
    exact ⟨rfl, id⟩
  · exact spares_inside (preserves.get key) world answer after ended

/-- No switch is on but the one for deletes. -/
structure OnlyDeletesFail (world : Switched MemoryWorld) : Prop where
  only : ∀ switch ∈ world.on, switch = .delete
  distinct : RecencyList.Distinct world.inner

theorem OnlyDeletesFail.off {world : Switched MemoryWorld} {switch : Switch}
    (sound : OnlyDeletesFail world) (other : switch ≠ .delete) : switch ∉ world.on :=
  fun on => other (sound.only switch on)

theorem reluctant (budget : Nat) : (Switched.store (MemoryStore.store budget)).Reluctant OnlyDeletesFail
    (fun world => MemoryStore.Holds world.inner) fun world _ => Switch.delete ∈ world.on := by
  refine ⟨?_, ?_, ?_, ?_⟩
  · intro key world answer after sound ended
    have off : world.on.contains .miss = false := by simpa using sound.off (by decide)
    change (guarded .get _).run world = _ at ended
    rw [run_guarded_of_off (sound.off (by decide)), StoreAction.run_getThe_bind, off] at ended
    rcases StoreAction.run_within ended with ⟨inner, called, rfl⟩
    rw [MemoryStore.run_get] at called
    cases called
    constructor
    · rintro asked value ⟨resident, member, own, same⟩
      have first := sound.distinct.find?_of_mem member
      exact ⟨resident, RecencyList.mem_use_id.mpr ⟨member, fun used => used ▸ first⟩, own, same⟩
    · rintro value ⟨resident, member, rfl, rfl⟩
      rw [sound.distinct.find?_of_mem member]
      rfl
  · intro key world answer after sound ended
    by_cases on : Switch.delete ∈ world.on
    · change (guarded .delete _).run world = _ at ended
      rw [run_guarded_of_on on] at ended
      cases ended
      exact ⟨fun _ _ => on, fun _ _ _ there => there⟩
    · change (guarded .delete _).run world = _ at ended
      rw [run_guarded_of_off on] at ended
      rcases StoreAction.run_within ended with ⟨inner, called, rfl⟩
      rw [MemoryStore.run_delete] at called
      cases called
      constructor
      · rintro value ⟨resident, member, own, -⟩
        exact absurd own (RecencyList.mem_remove.mp member).2
      · rintro asked value apart ⟨resident, member, own, same⟩
        exact ⟨resident, RecencyList.mem_remove.mpr ⟨member, own ▸ apart⟩, own, same⟩
  · rintro world answer after sound ended key value ⟨resident, member, -⟩
    change (guarded .clear _).run world = _ at ended
    rw [run_guarded_of_off (sound.off (by decide))] at ended
    rcases StoreAction.run_within ended with ⟨inner, called, rfl⟩
    rw [MemoryStore.run_clear] at called
    cases called
    cases member
  · intro world sound
    refine ⟨RecencyList.listing world.inner, ?_, ?_, ?_⟩
    · change (guarded .entries _).run world = _
      rw [run_guarded_of_off (sound.off (by decide))]
      rfl
    · rw [RecencyList.listing, List.map_map]
      exact sound.distinct
    · intro key
      simp only [RecencyList.listing, List.map_map, List.mem_map, Function.comp_apply]
      constructor
      · rintro ⟨resident, member, own⟩
        exact ⟨resident.item, resident, member, own, rfl⟩
      · rintro ⟨value, resident, member, own, -⟩
        exact ⟨resident, member, own⟩

end Switched

/-- The switches stay as they are, and so does what the calls on the inner stores do not undo. -/
theorem CacheSetup.switched_steady (tiers : TierConfig) (defaultLifetime? : Option Nat) (clock : Nat → Nat)
    (rule : (Tier → List Switch) → Prop) {fact : MemoryWorld → Prop}
    (preserves : ∀ budget, (MemoryStore.store budget).Preserves fact) :
    (CacheSetup.switched tiers defaultLifetime? clock).Steady (fun _ => False)
      fun worlds => rule (fun tier => (worlds.get tier).on) ∧ ∀ tier, fact (worlds.get tier).inner := by
  have keeps {Result : Type} {tier : Tier} {action : StoreAction (Switched MemoryWorld) Result}
      (answers : action.Answers) (spares : Switched.Spares fact action) :
      (StoreAction.within (·.get tier) (fun worlds world => PerTier.set worlds tier world) action).Keeps
        (fun _ => False) fun worlds =>
          rule (fun tier => (worlds.get tier).on) ∧ ∀ tier, fact (worlds.get tier).inner := by
    rintro worlds ⟨holds, inside⟩
    obtain ⟨answer, after, ended⟩ := answers.within (·.get tier)
      (fun worlds world => PerTier.set worlds tier world) worlds
    refine (Action.leads_of_eq ended).mpr ?_
    rcases StoreAction.run_within ended with ⟨inner, called, rfl⟩
    have stays (place : Tier) : ((worlds.set tier inner).get place).on = (worlds.get place).on ∧
        fact ((worlds.set tier inner).get place).inner := by
      by_cases own : place = tier
      · subst own
        rw [PerTier.get_set_same]
        have spared := spares _ _ _ called
        exact ⟨spared.1, spared.2 (inside place)⟩
      · rw [PerTier.get_set_other _ _ own]
        exact ⟨rfl, inside place⟩
    have same : (fun place => ((worlds.set tier inner).get place).on) =
        fun place => (worlds.get place).on := funext fun place => (stays place).1
    exact ⟨same ▸ holds, fun place => (stays place).2⟩
  have store (tier : Tier) : (CacheSetup.switched tiers defaultLifetime? clock).stores.get tier =
      (Switched.store (MemoryStore.store (tiers.capacity tier))).within (·.get tier)
        fun worlds world => worlds.set tier world := by
    cases tier <;> rfl
  have answers (tier : Tier) := Switched.answers (MemoryStore.answers (tiers.capacity tier))
  have inner (tier : Tier) := preserves (tiers.capacity tier)
  refine ⟨?_, ?_, ?_, ?_⟩
  · intro tier key
    rw [store]
    exact keeps ((answers tier).get key) (Switched.spares_get (inner tier) key)
  · intro tier key value
    rw [store]
    exact keeps ((answers tier).put key value) ((Switched.spares_inside ((inner tier).put key value)).guarded .put)
  · intro tier key
    rw [store]
    exact keeps ((answers tier).delete key) ((Switched.spares_inside ((inner tier).delete key)).guarded .delete)
  · intro tier
    rw [store]
    exact keeps (answers tier).clear ((Switched.spares_inside (inner tier).clear).guarded .clear)

theorem CacheSetup.switched_reluctant (tiers : TierConfig) (defaultLifetime? : Option Nat)
    (clock : Nat → Nat) (faults : Fault → Prop) :
    (CacheSetup.switched tiers defaultLifetime? clock).Reluctant faults
      (fun worlds => ∀ tier, (worlds.get tier).OnlyDeletesFail)
      (fun worlds tier => MemoryStore.Holds (worlds.get tier).inner)
      (fun worlds tier _ => Switch.delete ∈ (worlds.get tier).on) := by
  have sideBySide : (CacheSetup.switched tiers defaultLifetime? clock).stores =
      PerTier.sideBySide
        (.ofFunction fun tier => Switched.store (MemoryStore.store (tiers.capacity tier))) := rfl
  have faithful := switched_faithful tiers defaultLifetime? clock
  refine reluctant_of_sideBySide sideBySide Switched.OnlyDeletesFail
    (fun world => MemoryStore.Holds world.inner) (fun world _ => Switch.delete ∈ world.on) faithful ?_ ?_ ?_
  · have steady := switched_steady tiers defaultLifetime? clock
      (fun on => ∀ tier, ∀ switch ∈ on tier, switch = .delete) MemoryStore.preserves_distinct
    refine (steady.mono fun _ => False.elim).congr fun worlds => ?_
    exact ⟨fun both tier => ⟨both.1 tier, both.2 tier⟩,
      fun sound => ⟨fun tier => (sound tier).only, fun tier => (sound tier).distinct⟩⟩
  · intro tier key
    have steady := switched_steady tiers defaultLifetime? clock (fun on => Switch.delete ∈ on tier)
      fun budget => (MemoryStore.store budget).preserves_true
    refine (steady.mono fun _ _ => trivial).congr fun worlds => ?_
    exact and_iff_left fun _ => trivial
  · intro tier
    rw [PerTier.get_ofFunction]
    exact Switched.reluctant _

end TierVault

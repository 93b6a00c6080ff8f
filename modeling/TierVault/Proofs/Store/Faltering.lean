import TierVault.Proofs.Store.Reluctant
import TierVault.Proofs.Store.Sturdy

/-!
Stores any of whose calls may fail.

A call that fails leaves the shelf as it is. A write that is taken puts the value on the shelf and touches no
other, as long as it fits; where it does not, the store makes room on its own. So a store that has refused to
delete what it should have may lose later what it should keep. That it has refused is not forgotten.
-/

namespace TierVault

open TierVault.Action

variable {World Local Result : Type}

/-- The stores of a cache over shelves, with the capacities of the tiers for budgets. In a world, a tier is one
that has refused if its store did not delete something, or all, when it was asked to. -/
structure CacheSetup.Faltering (setup : CacheSetup World) (storable : Value → Prop)
    (sound : World → Prop) (shelves : World → Tier → Shelf) (held : Holding World)
    (refused : World → Tier → Prop) : Prop where
  faithful : setup.Faithful held
  holds : ∀ tier key value world, sound world →
    (shelves world tier).item? key = some value → held world tier key value
  steady : setup.Steady AnyFault sound
  recalls : ∀ tier, setup.Steady AnyFault fun world => refused world tier
  get : ∀ tier key world answer after, sound world →
    ((setup.stores.get tier).get key).run world = .ok answer after →
      shelves after = shelves world ∧ ∀ found, answer = .ok found → found = (shelves world tier).item? key
  put_failed : ∀ tier key value world error after, sound world →
    ((setup.stores.get tier).put key value).run world = .ok (.error error) after →
      shelves after = shelves world
  put : ∀ tier key value world after, sound world →
    ((setup.stores.get tier).put key value).run world = .ok (.ok ()) after →
      (∀ place, place ≠ tier → shelves after place = shelves world place) ∧
        (storable value → ((shelves world tier).put key value).bytes ≤ setup.tiers.capacity tier →
          shelves after tier = (shelves world tier).put key value)
  delete_failed : ∀ tier key world error after, sound world →
    ((setup.stores.get tier).delete key).run world = .ok (.error error) after →
      shelves after = shelves world ∧ refused after tier
  delete : ∀ tier key world answer after, sound world →
    ((setup.stores.get tier).delete key).run world = .ok (.ok answer) after →
      shelves after = Shelf.change (shelves world) tier (·.remove key)
  clear_failed : ∀ tier world error after, sound world →
    (setup.stores.get tier).clear.run world = .ok (.error error) after →
      shelves after = shelves world ∧ refused after tier
  clear : ∀ tier world after, sound world →
    (setup.stores.get tier).clear.run world = .ok (.ok ()) after →
      shelves after = Shelf.change (shelves world) tier fun _ => .empty

namespace CacheSetup.Faltering

variable {setup : CacheSetup World} {storable : Value → Prop} {sound : World → Prop}
  {shelves : World → Tier → Shelf} {held : Holding World} {refused : World → Tier → Prop}
  {tier place : Tier} {key : String} {before after : World}

theorem delete_cases (faltering : setup.Faltering storable sound shelves held refused)
    (isSound : sound before) {answer : Except StoreError Bool}
    (ended : ((setup.stores.get tier).delete key).run before = .ok answer after) :
    shelves after = shelves before ∧ refused after tier ∨
      shelves after = Shelf.change (shelves before) tier (·.remove key) := by
  cases answer with
  | error error => exact .inl (faltering.delete_failed _ _ _ _ _ isSound ended)
  | ok told => exact .inr (faltering.delete _ _ _ _ _ isSound ended)

theorem delete_other (faltering : setup.Faltering storable sound shelves held refused)
    (isSound : sound before) {answer : Except StoreError Bool}
    (ended : ((setup.stores.get tier).delete key).run before = .ok answer after)
    (different : place ≠ tier) : shelves after place = shelves before place := by
  rcases faltering.delete_cases isSound ended with ⟨same, -⟩ | less
  · rw [same]
  · rw [less, Shelf.change_other _ _ different]

theorem delete_own (faltering : setup.Faltering storable sound shelves held refused)
    (isSound : sound before) {answer : Except StoreError Bool}
    (ended : ((setup.stores.get tier).delete key).run before = .ok answer after)
    (spared : ¬refused after tier) : shelves after tier = (shelves before tier).remove key := by
  rcases faltering.delete_cases isSound ended with ⟨-, refuses⟩ | less
  · exact absurd refuses spared
  · rw [less, Shelf.change_same]

theorem clear_cases (faltering : setup.Faltering storable sound shelves held refused)
    (isSound : sound before) {answer : Except StoreError Unit}
    (ended : (setup.stores.get tier).clear.run before = .ok answer after) :
    shelves after = shelves before ∧ refused after tier ∨
      shelves after = Shelf.change (shelves before) tier fun _ => .empty := by
  cases answer with
  | error error => exact .inl (faltering.clear_failed _ _ _ _ isSound ended)
  | ok told => exact .inr (faltering.clear _ _ _ isSound ended)

end CacheSetup.Faltering

/-- The same of a single store. -/
structure Store.Faltering (store : Store Local) (budget : Nat) (storable : Value → Prop)
    (sound : Local → Prop) (shelf : Local → Shelf) (held : Local → String → Value → Prop)
    (refused : Local → Prop) : Prop where
  faithful : store.Faithful held
  holds : ∀ key value world, sound world → (shelf world).item? key = some value → held world key value
  stays : store.Preserves sound
  recalls : store.Preserves refused
  get : ∀ key world answer after, sound world → (store.get key).run world = .ok answer after →
    shelf after = shelf world ∧ ∀ found, answer = .ok found → found = (shelf world).item? key
  put_failed : ∀ key value world error after, sound world →
    (store.put key value).run world = .ok (.error error) after → shelf after = shelf world
  put : ∀ key value world after, sound world → (store.put key value).run world = .ok (.ok ()) after →
    storable value → ((shelf world).put key value).bytes ≤ budget →
      shelf after = (shelf world).put key value
  delete_failed : ∀ key world error after, sound world →
    (store.delete key).run world = .ok (.error error) after → shelf after = shelf world ∧ refused after
  delete : ∀ key world answer after, sound world →
    (store.delete key).run world = .ok (.ok answer) after → shelf after = (shelf world).remove key
  clear_failed : ∀ world error after, sound world →
    store.clear.run world = .ok (.error error) after → shelf after = shelf world ∧ refused after
  clear : ∀ world after, sound world → store.clear.run world = .ok (.ok ()) after → shelf after = .empty

/-! ## Side by side -/

theorem CacheSetup.Steady.forall {Index : Type} {setup : CacheSetup World} {facts : Index → World → Prop}
    (steady : ∀ index, setup.Steady AnyFault (facts index)) :
    setup.Steady AnyFault fun world => ∀ index, facts index world where
  get tier key world all :=
    leads_any.mpr fun _ _ ended index => ((steady index).get tier key world (all index)).of_ok ended
  put tier key value world all :=
    leads_any.mpr fun _ _ ended index => ((steady index).put tier key value world (all index)).of_ok ended
  delete tier key world all :=
    leads_any.mpr fun _ _ ended index => ((steady index).delete tier key world (all index)).of_ok ended
  clear tier world all :=
    leads_any.mpr fun _ _ ended index => ((steady index).clear tier world (all index)).of_ok ended

section SideBySide

variable {setup : CacheSetup (PerTier Local)} {stores : PerTier (Store Local)}

theorem CacheSetup.steady_of_preserves (sideBySide : setup.stores = stores.sideBySide)
    {fact : Local → Prop} (preserves : ∀ tier, (stores.get tier).Preserves fact) (place : Tier) :
    setup.Steady AnyFault fun worlds => fact (worlds.get place) := by
  have keeps {Result : Type} {tier : Tier} {action : StoreAction Local Result}
      (preserved : ∀ world answer after, action.run world = .ok answer after → fact world → fact after) :
      (StoreAction.within (·.get tier) (fun worlds world => PerTier.set worlds tier world) action).Keeps
        AnyFault fun worlds => fact (worlds.get place) := by
    intro worlds holds
    apply leads_any.mpr
    intro answer after ended
    rcases StoreAction.run_within ended with ⟨inner, called, rfl⟩
    by_cases own : place = tier
    · subst own
      rw [PerTier.get_set_same]
      exact preserved _ _ _ called holds
    · rwa [PerTier.get_set_other _ _ own]
  have store := sideBySide ▸ stores.get_sideBySide
  constructor
  · intro tier key
    rw [store]
    exact keeps ((preserves tier).get key)
  · intro tier key value
    rw [store]
    exact keeps ((preserves tier).put key value)
  · intro tier key
    rw [store]
    exact keeps ((preserves tier).delete key)
  · intro tier
    rw [store]
    exact keeps (preserves tier).clear

theorem CacheSetup.faltering_of_sideBySide (sideBySide : setup.stores = stores.sideBySide)
    (storable : Value → Prop) (sound : Local → Prop) (shelf : Local → Shelf)
    (held : Local → String → Value → Prop) (refused : Local → Prop)
    (faltering : ∀ tier,
      (stores.get tier).Faltering (setup.tiers.capacity tier) storable sound shelf held refused) :
    setup.Faltering storable (fun worlds => ∀ tier, sound (worlds.get tier))
      (fun worlds tier => shelf (worlds.get tier)) (fun worlds tier => held (worlds.get tier))
      fun worlds tier => refused (worlds.get tier) := by
  have store := sideBySide ▸ stores.get_sideBySide
  constructor
  case faithful => exact faithful_of_sideBySide sideBySide held fun tier => (faltering tier).faithful
  case holds =>
    intro tier key value worlds isSound there
    exact (faltering tier).holds key value _ (isSound tier) there
  case steady => exact .forall (steady_of_preserves sideBySide fun tier => (faltering tier).stays)
  case recalls => exact steady_of_preserves sideBySide fun tier => (faltering tier).recalls
  case get =>
    intro tier key worlds answer after isSound ended
    rw [store] at ended
    rcases StoreAction.run_within ended with ⟨inner, called, rfl⟩
    have told := (faltering tier).get _ _ _ _ (isSound tier) called
    exact ⟨PerTier.shelves_set_same tier told.1, told.2⟩
  case put_failed =>
    intro tier key value worlds error after isSound ended
    rw [store] at ended
    rcases StoreAction.run_within ended with ⟨inner, called, rfl⟩
    exact PerTier.shelves_set_same tier ((faltering tier).put_failed _ _ _ _ _ (isSound tier) called)
  case put =>
    intro tier key value worlds after isSound ended
    rw [store] at ended
    rcases StoreAction.run_within ended with ⟨inner, called, rfl⟩
    constructor
    · intro place different
      rw [PerTier.get_set_other _ _ different]
    · intro able fits
      rw [PerTier.get_set_same]
      exact (faltering tier).put _ _ _ _ (isSound tier) called able fits
  case delete_failed =>
    intro tier key worlds error after isSound ended
    rw [store] at ended
    rcases StoreAction.run_within ended with ⟨inner, called, rfl⟩
    have told := (faltering tier).delete_failed _ _ _ _ (isSound tier) called
    rw [PerTier.get_set_same]
    exact ⟨PerTier.shelves_set_same tier told.1, told.2⟩
  case delete =>
    intro tier key worlds answer after isSound ended
    rw [store] at ended
    rcases StoreAction.run_within ended with ⟨inner, called, rfl⟩
    exact PerTier.shelves_set tier ((faltering tier).delete _ _ _ _ (isSound tier) called)
  case clear_failed =>
    intro tier worlds error after isSound ended
    rw [store] at ended
    rcases StoreAction.run_within ended with ⟨inner, called, rfl⟩
    have told := (faltering tier).clear_failed _ _ _ (isSound tier) called
    rw [PerTier.get_set_same]
    exact ⟨PerTier.shelves_set_same tier told.1, told.2⟩
  case clear =>
    intro tier worlds after isSound ended
    rw [store] at ended
    rcases StoreAction.run_within ended with ⟨inner, called, rfl⟩
    exact PerTier.shelves_set tier ((faltering tier).clear _ _ (isSound tier) called)

end SideBySide

/-! ## In memory -/

namespace MemoryStore

variable {budget : Nat} {key : String} {value : Value} {world after : MemoryWorld}

theorem preserves_sound (budget : Nat) : (MemoryStore.store budget).Preserves Sound := by
  constructor
  · intro key world answer after ended isSound
    rw [run_get] at ended
    cases ended
    exact isSound.use key
  · intro key value world answer after ended isSound
    rcases put_cases ended with ⟨-, rfl⟩ | ⟨-, size, sized, rfl⟩
    · exact isSound
    · exact isSound.put sized budget
  · intro key world answer after ended isSound
    rw [run_delete] at ended
    cases ended
    exact isSound.remove key
  · intro world answer after ended _
    rw [run_clear] at ended
    cases ended
    exact ⟨List.nodup_nil, by simp⟩

/-- A store in memory refuses values, but never to delete. -/
theorem faltering (budget : Nat) : (MemoryStore.store budget).Faltering budget (fun _ => True) Sound shelf
    Holds fun _ => False := by
  constructor
  case faithful => exact faithful budget
  case holds =>
    intro key value world _ there
    rcases Option.map_eq_some_iff.mp there with ⟨resident, found, same⟩
    have known := RecencyList.find?_some found
    exact ⟨resident, known.1, known.2, same⟩
  case stays => exact preserves_sound budget
  case recalls => constructor <;> exact fun _ _ _ => by simp
  case get =>
    intro key world answer after isSound ended
    rw [run_get] at ended
    cases ended
    refine ⟨shelf_use isSound, fun found same => ?_⟩
    cases same
    rfl
  case put_failed =>
    intro key value world error after _ ended
    rcases put_cases ended with ⟨-, rfl⟩ | ⟨impossible, -⟩
    · rfl
    · cases impossible
  case put =>
    intro key value world after isSound ended _ fits
    rcases put_cases ended with ⟨⟨error, impossible⟩, -⟩ | ⟨-, size, sized, rfl⟩
    · cases impossible
    · exact shelf_put isSound sized fits
  case delete_failed =>
    intro key world error after _ ended
    rw [run_delete] at ended
    cases ended
  case delete =>
    intro key world answer after isSound ended
    rw [run_delete] at ended
    cases ended
    exact shelf_remove isSound
  case clear_failed =>
    intro world error after _ ended
    rw [run_clear] at ended
    cases ended
  case clear =>
    intro world after _ ended
    rw [run_clear] at ended
    cases ended
    rfl

end MemoryStore

/-! ## With single calls that fail -/

/-- A world, whether each of the coming calls fails, and whether a delete or a clear has failed. -/
structure Scripted (World : Type) where
  coming : List Bool
  refused : Bool
  inner : World

namespace Scripted

/-- A call that fails before it does anything, if that is what comes next. -/
def scripted (deletes : Bool) (action : StoreAction World Result) : StoreAction (Scripted World) Result :=
  fun world =>
    if world.coming.headD false then
      .ok (.error (.io .other))
        { world with coming := world.coming.tail, refused := world.refused || deletes }
    else
      StoreAction.within Scripted.inner (fun world inner => { world with inner }) action
        { world with coming := world.coming.tail }

def store (inner : Store World) : Store (Scripted World) where
  name := inner.name
  budget := inner.budget
  get key := scripted false (inner.get key)
  put key value := scripted false (inner.put key value)
  has key := scripted false (inner.has key)
  delete key := scripted true (inner.delete key)
  clear := scripted true inner.clear
  size := scripted false inner.size
  entries := scripted false inner.entries

variable {deletes : Bool} {action : StoreAction World Result} {world after : Scripted World}
  {answer : Except StoreError Result}

theorem run_scripted (ended : (scripted deletes action).run world = .ok answer after) :
    (∃ error, answer = .error error) ∧ after.inner = world.inner ∧
        (deletes = true ∨ world.refused = true → after.refused = true) ∨
      action.run world.inner = .ok answer after.inner ∧ after.refused = world.refused := by
  simp only [scripted, ExceptT.run] at ended
  split at ended
  · cases ended
    refine .inl ⟨⟨_, rfl⟩, rfl, fun known => ?_⟩
    simpa [or_comm] using known
  · rcases StoreAction.run_within ended with ⟨inner, called, rfl⟩
    exact .inr ⟨called, rfl⟩

variable {fact : World → Prop}

theorem inner_scripted
    (preserves : ∀ world answer after, action.run world = .ok answer after → fact world → fact after)
    (ended : (scripted deletes action).run world = .ok answer after) (before : fact world.inner) :
    fact after.inner := by
  rcases run_scripted ended with ⟨-, same, -⟩ | ⟨called, -⟩
  · rwa [same]
  · exact preserves _ _ _ called before

theorem recalls_scripted
    (preserves : ∀ world answer after, action.run world = .ok answer after → fact world → fact after)
    (ended : (scripted deletes action).run world = .ok answer after)
    (before : world.refused = true ∨ fact world.inner) : after.refused = true ∨ fact after.inner := by
  rcases before with already | before
  · left
    rcases run_scripted ended with ⟨-, -, recalls⟩ | ⟨-, same⟩
    · exact recalls (.inr already)
    · exact same.trans already
  · exact .inr (inner_scripted preserves ended before)

theorem faithful {inner : Store World} {held : World → String → Value → Prop}
    (within : inner.Faithful held) : (store inner).Faithful fun world => held world.inner := by
  constructor
  · intro key world answer after ended
    rcases run_scripted ended with ⟨⟨error, rfl⟩, same, -⟩ | ⟨called, -⟩
    · refine ⟨fun _ _ there => same ▸ there, fun value answered => ?_⟩
      cases answered
    · exact within.get _ _ _ _ called
  · intro key value world after ended
    rcases run_scripted ended with ⟨⟨error, impossible⟩, -⟩ | ⟨called, -⟩
    · cases impossible
    · exact within.put _ _ _ _ called
  · intro key value world error after ended
    rcases run_scripted ended with ⟨-, same, -⟩ | ⟨called, -⟩
    · exact fun _ _ there => same ▸ there
    · exact within.put_failed _ _ _ _ _ called
  · intro key world answer after ended
    rcases run_scripted ended with ⟨-, same, -⟩ | ⟨called, -⟩
    · exact fun _ _ there => same ▸ there
    · exact within.delete _ _ _ _ called

theorem faltering {inner : Store World} {budget : Nat} {storable : Value → Prop} {sound : World → Prop}
    {shelf : World → Shelf} {held : World → String → Value → Prop} {refused : World → Prop}
    (within : inner.Faltering budget storable sound shelf held refused) :
    (store inner).Faltering budget storable (fun world => sound world.inner) (fun world => shelf world.inner)
      (fun world => held world.inner) fun world => world.refused = true ∨ refused world.inner := by
  constructor
  case faithful => exact faithful within.faithful
  case holds => exact fun key value world => within.holds key value world.inner
  case stays =>
    constructor
    · exact fun key _ _ _ => inner_scripted (within.stays.get key)
    · exact fun key value _ _ _ => inner_scripted (within.stays.put key value)
    · exact fun key _ _ _ => inner_scripted (within.stays.delete key)
    · exact fun _ _ _ => inner_scripted within.stays.clear
  case recalls =>
    constructor
    · exact fun key _ _ _ => recalls_scripted (within.recalls.get key)
    · exact fun key value _ _ _ => recalls_scripted (within.recalls.put key value)
    · exact fun key _ _ _ => recalls_scripted (within.recalls.delete key)
    · exact fun _ _ _ => recalls_scripted within.recalls.clear
  case get =>
    intro key world answer after isSound ended
    rcases run_scripted ended with ⟨⟨error, rfl⟩, same, -⟩ | ⟨called, -⟩
    · refine ⟨congrArg shelf same, fun found answered => ?_⟩
      cases answered
    · exact within.get _ _ _ _ isSound called
  case put_failed =>
    intro key value world error after isSound ended
    rcases run_scripted ended with ⟨-, same, -⟩ | ⟨called, -⟩
    · exact congrArg shelf same
    · exact within.put_failed _ _ _ _ _ isSound called
  case put =>
    intro key value world after isSound ended
    rcases run_scripted ended with ⟨⟨error, impossible⟩, -⟩ | ⟨called, -⟩
    · cases impossible
    · exact within.put _ _ _ _ isSound called
  case delete_failed =>
    intro key world error after isSound ended
    rcases run_scripted ended with ⟨-, same, recalls⟩ | ⟨called, -⟩
    · exact ⟨congrArg shelf same, .inl (recalls (.inl rfl))⟩
    · have told := within.delete_failed _ _ _ _ isSound called
      exact ⟨told.1, .inr told.2⟩
  case delete =>
    intro key world answer after isSound ended
    rcases run_scripted ended with ⟨⟨error, impossible⟩, -⟩ | ⟨called, -⟩
    · cases impossible
    · exact within.delete _ _ _ _ isSound called
  case clear_failed =>
    intro world error after isSound ended
    rcases run_scripted ended with ⟨-, same, recalls⟩ | ⟨called, -⟩
    · exact ⟨congrArg shelf same, .inl (recalls (.inl rfl))⟩
    · have told := within.clear_failed _ _ _ isSound called
      exact ⟨told.1, .inr told.2⟩
  case clear =>
    intro world after isSound ended
    rcases run_scripted ended with ⟨⟨error, impossible⟩, -⟩ | ⟨called, -⟩
    · cases impossible
    · exact within.clear _ _ isSound called

end Scripted

/-- A cache over four stores in memory any of whose calls can be made to fail. -/
def CacheSetup.scripted (tiers : TierConfig) (defaultLifetime? : Option Nat) (clock : Nat → Nat) :
    CacheSetup (PerTier (Scripted MemoryWorld)) where
  tiers := tiers
  defaultLifetime? := defaultLifetime?
  stores := PerTier.sideBySide
    (.ofFunction fun tier => Scripted.store (MemoryStore.store (tiers.capacity tier)))
  clock := clock

theorem CacheSetup.scripted_faltering (tiers : TierConfig) (defaultLifetime? : Option Nat)
    (clock : Nat → Nat) : (CacheSetup.scripted tiers defaultLifetime? clock).Faltering (fun _ => True)
      (fun worlds => ∀ tier, MemoryStore.Sound (worlds.get tier).inner)
      (fun worlds tier => MemoryStore.shelf (worlds.get tier).inner)
      (fun worlds tier => MemoryStore.Holds (worlds.get tier).inner)
      fun worlds tier => (worlds.get tier).refused = true ∨ False := by
  have sideBySide : (CacheSetup.scripted tiers defaultLifetime? clock).stores =
      PerTier.sideBySide
        (.ofFunction fun tier => Scripted.store (MemoryStore.store (tiers.capacity tier))) := rfl
  refine faltering_of_sideBySide sideBySide _ (fun world : Scripted MemoryWorld => MemoryStore.Sound world.inner)
    (fun world => MemoryStore.shelf world.inner) (fun world => MemoryStore.Holds world.inner)
    (fun world => world.refused = true ∨ False) fun tier => ?_
  rw [PerTier.get_ofFunction]
  exact Scripted.faltering (MemoryStore.faltering _)

end TierVault

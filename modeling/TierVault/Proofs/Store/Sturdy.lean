import TierVault.Proofs.Store.Memory
import TierVault.Proofs.Store.SideBySide
import TierVault.Proofs.Value.Encoding

/-!
Stores that do not fail.

What such a store holds is a shelf: a value under each key, and the bytes of all of them. Reads leave the
shelf as it is. Writes that fit the budget put a value there and touch no other.
-/

namespace TierVault

variable {World Local : Type}

@[ext] structure Shelf where
  item? : String → Option Value
  bytes : Nat

namespace Shelf

/-- The bytes under a key. -/
def bytesAt (shelf : Shelf) (key : String) : Nat := (shelf.item? key).elim 0 Value.weight

def remove (shelf : Shelf) (key : String) : Shelf where
  item? asked := if asked = key then none else shelf.item? asked
  bytes := shelf.bytes - shelf.bytesAt key

def put (shelf : Shelf) (key : String) (value : Value) : Shelf where
  item? asked := if asked = key then some value else shelf.item? asked
  bytes := shelf.bytes - shelf.bytesAt key + value.weight

def empty : Shelf where
  item? _ := none
  bytes := 0

/-- One shelf changes, the others do not. -/
def change (shelves : Tier → Shelf) (tier : Tier) (next : Shelf → Shelf) : Tier → Shelf :=
  fun place => if place = tier then next (shelves place) else shelves place

theorem change_same (shelves : Tier → Shelf) (tier : Tier) (next : Shelf → Shelf) :
    change shelves tier next tier = next (shelves tier) := if_pos rfl

theorem change_other (shelves : Tier → Shelf) {tier place : Tier} (next : Shelf → Shelf)
    (different : place ≠ tier) : change shelves tier next place = shelves place :=
  if_neg different

theorem change_comm (shelves : Tier → Shelf) {first second : Tier} (one other : Shelf → Shelf)
    (different : first ≠ second) :
    change (change shelves first one) second other =
      change (change shelves second other) first one := by
  funext place
  by_cases own : place = second
  · subst own
    rw [change_same, change_other _ _ different.symm, change_other _ _ different.symm, change_same]
  · rw [change_other _ _ own]
    by_cases there : place = first
    · subst there
      rw [change_same, change_same, change_other _ _ own]
    · rw [change_other _ _ there, change_other _ _ there, change_other _ _ own]

theorem change_change (shelves : Tier → Shelf) (tier : Tier) (first second : Shelf → Shelf) :
    change (change shelves tier first) tier second =
      change shelves tier fun shelf => second (first shelf) := by
  funext place
  by_cases own : place = tier
  · subst own
    rw [change_same, change_same, change_same]
  · rw [change_other _ _ own, change_other _ _ own, change_other _ _ own]

theorem put_remove (shelf : Shelf) (key : String) (value : Value) :
    (shelf.remove key).put key value = shelf.put key value := by
  apply Shelf.ext
  · funext asked
    simp only [put, remove]
    split <;> rfl
  · simp [put, remove, bytesAt]

/-- A shelf changes to what it is known to be. -/
theorem eq_change {shelves others : Tier → Shelf} {tier : Tier} {next : Shelf → Shelf}
    (same : others tier = next (shelves tier))
    (other : ∀ place, place ≠ tier → others place = shelves place) :
    others = change shelves tier next := by
  funext place
  by_cases own : place = tier
  · rw [own, same, change_same]
  · rw [other place own, change_other _ _ own]

end Shelf

/-- A store over a shelf. A write answers in any case; a value that can be stored is taken where it fits. -/
structure Store.Sturdy (store : Store Local) (budget : Nat) (storable : Value → Prop)
    (sound : Local → Prop) (shelf : Local → Shelf) : Prop where
  get : ∀ key world, sound world → ∃ after,
    (store.get key).run world = .ok (.ok ((shelf world).item? key)) after ∧
      sound after ∧ shelf after = shelf world
  answers : ∀ key value world, sound world → ∃ answer after,
    (store.put key value).run world = .ok answer after ∧ sound after
  put : ∀ key value size world, sound world → storable value → value.encodedSize = .ok size →
    ((shelf world).put key value).bytes ≤ budget → ∃ after,
      (store.put key value).run world = .ok (.ok ()) after ∧
        sound after ∧ shelf after = (shelf world).put key value
  delete : ∀ key world, sound world → ∃ answer after,
    (store.delete key).run world = .ok (.ok answer) after ∧
      sound after ∧ shelf after = (shelf world).remove key
  clear : ∀ world, sound world → ∃ after,
    store.clear.run world = .ok (.ok ()) after ∧ sound after ∧ shelf after = .empty
  size : ∀ world, sound world → ∃ after,
    store.size.run world = .ok (.ok (shelf world).bytes) after ∧
      sound after ∧ shelf after = shelf world

/-- The stores of a cache over shelves, with the capacities of the tiers for budgets. -/
structure CacheSetup.Sturdy (setup : CacheSetup World) (storable : Value → Prop)
    (sound : World → Prop) (shelves : World → Tier → Shelf) : Prop where
  get : ∀ tier key world, sound world → ∃ after,
    ((setup.stores.get tier).get key).run world =
        .ok (.ok ((shelves world tier).item? key)) after ∧
      sound after ∧ shelves after = shelves world
  answers : ∀ tier key value world, sound world → ∃ answer after,
    ((setup.stores.get tier).put key value).run world = .ok answer after ∧ sound after
  put : ∀ tier key value size world, sound world → storable value → value.encodedSize = .ok size →
    ((shelves world tier).put key value).bytes ≤ setup.tiers.capacity tier → ∃ after,
      ((setup.stores.get tier).put key value).run world = .ok (.ok ()) after ∧
        sound after ∧ shelves after = Shelf.change (shelves world) tier (·.put key value)
  delete : ∀ tier key world, sound world → ∃ answer after,
    ((setup.stores.get tier).delete key).run world = .ok (.ok answer) after ∧
      sound after ∧ shelves after = Shelf.change (shelves world) tier (·.remove key)
  clear : ∀ tier world, sound world → ∃ after,
    (setup.stores.get tier).clear.run world = .ok (.ok ()) after ∧
      sound after ∧ shelves after = Shelf.change (shelves world) tier fun _ => .empty
  size : ∀ tier world, sound world → ∃ after,
    (setup.stores.get tier).size.run world = .ok (.ok (shelves world tier).bytes) after ∧
      sound after ∧ shelves after = shelves world

/-! ## Side by side -/

/-- The shelf of one tier changes with its world. -/
theorem PerTier.shelves_set {shelf : Local → Shelf} {worlds : PerTier Local} (tier : Tier) {after : Local}
    {next : Shelf → Shelf} (here : shelf after = next (shelf (worlds.get tier))) :
    (fun place => shelf ((worlds.set tier after).get place)) =
      Shelf.change (fun place => shelf (worlds.get place)) tier next := by
  apply Shelf.eq_change
  · rw [get_set_same]
    exact here
  · intro place different
    rw [get_set_other _ _ different]

/-- If the shelf of the tier stays as it is, all do. -/
theorem PerTier.shelves_set_same {shelf : Local → Shelf} {worlds : PerTier Local} (tier : Tier)
    {after : Local} (same : shelf after = shelf (worlds.get tier)) :
    (fun place => shelf ((worlds.set tier after).get place)) = fun place => shelf (worlds.get place) := by
  have own : shelf after = id (shelf (worlds.get tier)) := same
  rw [shelves_set tier own]
  exact (Shelf.eq_change rfl fun _ _ => rfl).symm

theorem CacheSetup.sturdy_of_sideBySide {setup : CacheSetup (PerTier Local)}
    {stores : PerTier (Store Local)} (sideBySide : setup.stores = stores.sideBySide)
    (storable : Value → Prop) (sound : Local → Prop) (shelf : Local → Shelf)
    (sturdy : ∀ tier,
      (stores.get tier).Sturdy (setup.tiers.capacity tier) storable sound shelf) :
    setup.Sturdy storable (fun worlds => ∀ tier, sound (worlds.get tier))
      (fun worlds tier => shelf (worlds.get tier)) := by
  have store := sideBySide ▸ stores.get_sideBySide
  have stays {worlds : PerTier Local} (tier : Tier) {after : Local}
      (isSound : ∀ place, sound (worlds.get place)) (here : sound after) :
      ∀ place, sound ((worlds.set tier after).get place) := by
    intro place
    by_cases own : place = tier
    · subst own
      rwa [PerTier.get_set_same]
    · rw [PerTier.get_set_other _ _ own]
      exact isSound place
  refine ⟨?_, ?_, ?_, ?_, ?_, ?_⟩
  · intro tier key worlds isSound
    rcases (sturdy tier).get key _ (isSound tier) with ⟨after, ended, here, same⟩
    rw [store]
    exact ⟨_, StoreAction.run_within_of_ok ended, stays tier isSound here, PerTier.shelves_set_same tier same⟩
  · intro tier key value worlds isSound
    rcases (sturdy tier).answers key value _ (isSound tier) with ⟨answer, after, ended, here⟩
    rw [store]
    exact ⟨answer, _, StoreAction.run_within_of_ok ended, stays tier isSound here⟩
  · intro tier key value size worlds isSound able size_eq fits
    rcases (sturdy tier).put key value size _ (isSound tier) able size_eq fits with
      ⟨after, ended, here, more⟩
    rw [store]
    exact ⟨_, StoreAction.run_within_of_ok ended, stays tier isSound here, PerTier.shelves_set tier more⟩
  · intro tier key worlds isSound
    rcases (sturdy tier).delete key _ (isSound tier) with ⟨told, after, ended, here, less⟩
    rw [store]
    exact ⟨told, _, StoreAction.run_within_of_ok ended, stays tier isSound here, PerTier.shelves_set tier less⟩
  · intro tier worlds isSound
    rcases (sturdy tier).clear _ (isSound tier) with ⟨after, ended, here, bare⟩
    rw [store]
    exact ⟨_, StoreAction.run_within_of_ok ended, stays tier isSound here, PerTier.shelves_set tier bare⟩
  · intro tier worlds isSound
    rcases (sturdy tier).size _ (isSound tier) with ⟨after, ended, here, same⟩
    rw [store]
    exact ⟨_, StoreAction.run_within_of_ok ended, stays tier isSound here, PerTier.shelves_set_same tier same⟩

/-! ## In memory -/

namespace MemoryStore

/-- Every key stands once, with the size of its value. -/
structure Sound (world : MemoryWorld) : Prop where
  distinct : RecencyList.Distinct world
  sized : ∀ resident ∈ world, resident.item.encodedSize = .ok resident.size

def shelf (world : MemoryWorld) : Shelf where
  item? key := (RecencyList.find? key world).map Resident.item
  bytes := RecencyList.total world

variable {world : MemoryWorld} {key : String} {value : Value} {size : Nat}

theorem Sound.remove (isSound : Sound world) (key : String) :
    Sound (RecencyList.remove key world) := by
  refine ⟨isSound.distinct.remove key, fun resident member => ?_⟩
  exact isSound.sized resident (RecencyList.mem_remove.mp member).1

theorem Sound.use (isSound : Sound world) (key : String) :
    Sound (RecencyList.use key id world) := by
  refine ⟨isSound.distinct.use_id key, fun resident member => ?_⟩
  exact isSound.sized resident (RecencyList.mem_use_id.mp member).1

theorem Sound.put (isSound : Sound world) (size_eq : value.encodedSize = .ok size) (budget : Nat) :
    Sound (RecencyList.put budget ⟨key, size, value⟩ world) := by
  refine ⟨isSound.distinct.put budget _, fun resident member => ?_⟩
  rcases RecencyList.mem_put member with rfl | ⟨there, -⟩
  · exact size_eq
  · exact isSound.sized resident there

theorem Sound.total_remove (isSound : Sound world) (key : String) :
    RecencyList.total (RecencyList.remove key world) =
      RecencyList.total world - (shelf world).bytesAt key := by
  change _ = _ - ((RecencyList.find? key world).map Resident.item).elim 0 Value.weight
  cases found : RecencyList.find? key world with
  | none =>
      rw [RecencyList.remove_of_find?_eq_none found]
      rfl
  | some resident =>
      have less := isSound.distinct.total_remove found
      have weight := Value.weight_eq (isSound.sized resident (RecencyList.find?_some found).1)
      rw [Option.map_some, Option.elim_some, weight]
      omega

theorem shelf_use (isSound : Sound world) :
    shelf (RecencyList.use key id world) = shelf world := by
  apply Shelf.ext
  · funext asked
    exact congrArg (Option.map Resident.item) RecencyList.find?_use_id
  · exact isSound.distinct.total_use_id key

theorem shelf_remove (isSound : Sound world) :
    shelf (RecencyList.remove key world) = (shelf world).remove key := by
  apply Shelf.ext
  · funext asked
    simp only [shelf, Shelf.remove, RecencyList.find?_remove]
    split <;> rfl
  · exact isSound.total_remove key

theorem shelf_put {budget : Nat} (isSound : Sound world) (size_eq : value.encodedSize = .ok size)
    (fits : ((shelf world).put key value).bytes ≤ budget) :
    shelf (RecencyList.put budget ⟨key, size, value⟩ world) = (shelf world).put key value := by
  have weight := Value.weight_eq size_eq
  have roomy : RecencyList.total (RecencyList.remove key world) + size ≤ budget := by
    rw [isSound.total_remove key, ← weight]
    exact fits
  rw [RecencyList.put, RecencyList.makeRoom_of_fits roomy]
  apply Shelf.ext
  · funext asked
    simp only [shelf, Shelf.put, RecencyList.find?_remove_append]
    split <;> rfl
  · simp only [shelf, Shelf.put, RecencyList.total_append, weight]
    rw [isSound.total_remove key]
    rfl

/-- Within the budget, a store in memory makes no room on its own. -/
theorem sturdy (budget : Nat) :
    (MemoryStore.store budget).Sturdy budget (fun _ => True) Sound shelf := by
  refine ⟨?_, ?_, ?_, ?_, ?_, ?_⟩
  · intro key world isSound
    exact ⟨_, run_get, isSound.use key, shelf_use isSound⟩
  · intro key value world isSound
    cases size_eq : value.encodedSize with
    | error error => exact ⟨_, world, run_put_of_error size_eq, isSound⟩
    | ok size =>
        by_cases large : budget < size
        · exact ⟨_, world, run_put_of_lt size_eq large, isSound⟩
        · exact ⟨_, _, run_put size_eq (Nat.not_lt.mp large), isSound.put size_eq budget⟩
  · intro key value size world isSound _ size_eq fits
    have small : size ≤ budget := by
      rw [← Value.weight_eq size_eq]
      exact Nat.le_trans (Nat.le_add_left _ _) fits
    exact ⟨_, run_put size_eq small, isSound.put size_eq budget, shelf_put isSound size_eq fits⟩
  · intro key world isSound
    exact ⟨_, _, run_delete, isSound.remove key, shelf_remove isSound⟩
  · intro world isSound
    exact ⟨[], run_clear, ⟨List.nodup_nil, by simp⟩, rfl⟩
  · intro world isSound
    exact ⟨world, run_size, isSound, rfl⟩

end MemoryStore

/-- A cache over four stores in memory. -/
def CacheSetup.inMemory (tiers : TierConfig) (defaultLifetime? : Option Nat) (clock : Nat → Nat) :
    CacheSetup (PerTier MemoryWorld) where
  tiers := tiers
  defaultLifetime? := defaultLifetime?
  stores := PerTier.sideBySide (.ofFunction fun tier => MemoryStore.store (tiers.capacity tier))
  clock := clock

theorem CacheSetup.inMemory_answers (tiers : TierConfig) (defaultLifetime? : Option Nat)
    (clock : Nat → Nat) (tier : Tier) :
    ((CacheSetup.inMemory tiers defaultLifetime? clock).stores.get tier).Answers := by
  refine PerTier.answers_sideBySide (fun tier => ?_) tier
  rw [PerTier.get_ofFunction]
  exact MemoryStore.answers _

theorem CacheSetup.inMemory_sturdy (tiers : TierConfig) (defaultLifetime? : Option Nat)
    (clock : Nat → Nat) :
    (CacheSetup.inMemory tiers defaultLifetime? clock).Sturdy (fun _ => True)
      (fun worlds => ∀ tier, MemoryStore.Sound (worlds.get tier))
      (fun worlds tier => MemoryStore.shelf (worlds.get tier)) := by
  have sideBySide : (CacheSetup.inMemory tiers defaultLifetime? clock).stores =
      PerTier.sideBySide
        (.ofFunction fun tier => MemoryStore.store (tiers.capacity tier)) := rfl
  refine sturdy_of_sideBySide sideBySide _ MemoryStore.Sound MemoryStore.shelf fun tier => ?_
  rw [PerTier.get_ofFunction]
  exact MemoryStore.sturdy _

end TierVault

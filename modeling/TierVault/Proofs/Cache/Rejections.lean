import TierVault.Proofs.Cache.Losses
import TierVault.Proofs.Cache.Stocks

/-!
What a put that is not taken leaves of its key, where calls on stores may fail.

A value that no tier can take changes nothing. If a store refuses a value, room was made for it before, by
demotions and evictions that are not undone, but never from the key's own entry. Its payload is left alone as
well, as long as the store that holds it has deleted whatever it was asked to delete: otherwise it holds more
than the cache counts, and may give the payload up when an entry is demoted into it.
-/

namespace TierVault

variable {World : Type}

namespace CacheState

variable {setup : CacheSetup World} {storable : Value → Prop} {sound : World → Prop}
  {shelves : World → Tier → Shelf} {held : Holding World} {refused : World → Tier → Prop}
  {newest : String → Option Value} {state final : CacheState World} {key : String} {value : Value}
  {size : Nat} {tiers : List Tier}

/-- The value cannot be encoded, or is too large for the tier that its size is meant for and all colder ones. -/
def Unfit (setup : CacheSetup World) (value : Value) : Prop :=
  ∀ size, value.encodedSize = .ok size →
    ∀ tier ∈ (setup.tiers.tierForSize size).downward, setup.tiers.capacity tier < size

/-- The entry of a key is as it was. What is left of its payload is the latest value of the key, and it is left
unless the store of its tier has refused to delete something. -/
structure Undisturbed (shelves : World → Tier → Shelf) (refused : World → Tier → Prop)
    (history : List CacheEvent) (key : String) (state final : CacheState World) : Prop where
  lookup : final.lookup key = state.lookup key
  payload : ∀ entry, state.lookup key = some entry → ∃ previous, latest key history = some previous ∧
    (∀ found, (shelves final.world entry.tier).item? key = some found → found = previous) ∧
      (¬refused final.world entry.tier → (shelves state.world entry.tier).item? key = some previous ∧
        (shelves final.world entry.tier).item? key = some previous)

theorem Rejects.lookup (rejects : Rejects setup key value size tiers state final) :
    final.lookup key = state.lookup key := by
  cases rejects with
  | tooLarge => rfl
  | failed _ _ room refuses =>
      cases refuses
      exact room.lookup_of_mem (List.mem_singleton.mpr rfl)

theorem Rejects.stocked (rejects : Rejects setup key value size tiers state final)
    (faltering : setup.Faltering storable sound shelves held refused)
    (stocked : Stocked setup storable sound shelves held refused newest state) :
    Stocked setup storable sound shelves held refused newest final := by
  cases rejects with
  | tooLarge => exact stocked.congr rfl rfl rfl
  | failed _ _ room refuses =>
      exact ((stocked.retreat faltering room).refuse faltering refuses).congr rfl rfl rfl

/-- The payload of an entry is on the shelf of its tier, if the store has refused nothing. -/
theorem Stocked.item?_eq {entry : Entry}
    (stocked : Stocked setup storable sound shelves held refused newest state)
    (found : state.lookup key = some entry) (spared : ¬refused state.world entry.tier) :
    (shelves state.world entry.tier).item? key = newest key := by
  rw [stocked.exact _ spared, item?_shelf_of_lookup found, if_pos rfl]

theorem Stocked.eq_newest {entry : Entry} {there : Value}
    (stocked : Stocked setup storable sound shelves held refused newest state)
    (faltering : setup.Faltering storable sound shelves held refused)
    (found : state.lookup key = some entry)
    (left : (shelves state.world entry.tier).item? key = some there) : newest key = some there := by
  rcases stocked.fresh key entry found with ⟨latest, new, only⟩
  rw [new, only there (faltering.holds _ _ _ _ stocked.sound left)]

end CacheState

namespace TieredCache

open TierVault.Action CacheState

variable {setup : CacheSetup World} {storable : Value → Prop} {sound : World → Prop}
  {shelves : World → Tier → Shelf} {held : Holding World} {refused : World → Tier → Prop}

/-- In every state that a cache has come to whose stores may fail, a put that is not taken changes nothing if
the value fits nowhere. Otherwise a store has refused the value. In either case the key's entry stays as it was,
and its payload the latest value of the key, unless the store that should hold it has refused to delete
something: then it may be gone, but it is no other value. -/
theorem put_rejected (setup : CacheSetup World)
    (faltering : setup.Faltering storable sound shelves held refused) (world : World)
    (isSound : sound world) (bare : ∀ tier, shelves world tier = .empty) (calls : List CacheCall)
    (offers : ∀ call ∈ calls, call.Offers storable) {history : List CacheEvent}
    {state : CacheState World}
    (reached : runAll setup calls (.start setup world) = .ok history state)
    {key : String} {value : Value} {lifetime? : Option Nat} {final : CacheState World}
    (rejected : put setup key value lifetime? state = .ok false final) :
    (Unfit setup value →
      final.entries = state.entries ∧ final.usage = state.usage ∧ final.world = state.world) ∧
    (¬Unfit setup value → ∃ tier before error,
      ((setup.stores.get tier).put key value).run before = .ok (.error error) final.world) ∧
    Undisturbed shelves refused history key state final := by
  have stocked := stocked_of_runAll faltering isSound bare offers reached
  have tallied := stocked.balanced.toTallied
  have recalls (tier : Tier) (already : refused state.world tier) : refused final.world tier := by
    have orderly : state.Orderly setup AnyFault fun world => refused world tier :=
      ⟨tallied, already, fun checked => absurd trivial checked⟩
    have leads := leads_run (faltering.recalls tier) orderly (.put key value lifetime?)
      fun checked => absurd trivial checked
    exact (leads.of_ok rejected).2.sound
  suffices left : final.lookup key = state.lookup key ∧
      Stocked setup storable sound shelves held refused (latest · history) final ∧
      (Unfit setup value →
        final.entries = state.entries ∧ final.usage = state.usage ∧ final.world = state.world) ∧
      (¬Unfit setup value → ∃ tier before error,
        ((setup.stores.get tier).put key value).run before = .ok (.error error) final.world) by
    obtain ⟨same, after, unfit, failed⟩ := left
    refine ⟨unfit, failed, same, fun entry found => ?_⟩
    have still := same.trans found
    rcases stocked.sized key entry found with ⟨previous, new, -⟩
    refine ⟨previous, new, fun there payload => ?_, fun spared => ⟨?_, ?_⟩⟩
    · exact (Option.some.inj (new.symm.trans (after.eq_newest faltering still payload))).symm
    · exact (stocked.item?_eq found fun already => spared (recalls _ already)).trans new
    · exact (after.item?_eq still spared).trans new
  unfold put at rejected
  cases sized : value.encodedSize with
  | error error =>
      rw [sized] at rejected
      cases rejected
      refine ⟨rfl, stocked.congr rfl rfl rfl, fun _ => ⟨rfl, rfl, rfl⟩, fun fit => absurd ?_ fit⟩
      intro size same
      cases sized.symm.trans same
  | ok size =>
      rw [sized] at rejected
      have rejects := (leads_place_rejects stocked.balanced _).of_ok rejected rfl
      refine ⟨rejects.lookup, rejects.stocked faltering stocked, ?_⟩
      cases rejects with
      | tooLarge small =>
          refine ⟨fun _ => ⟨rfl, rfl, rfl⟩, fun fit => absurd ?_ fit⟩
          intro other same
          cases sized.symm.trans same
          exact small
      | failed member fitting _ refuses =>
          cases refuses with
          | because _ put =>
              refine ⟨fun unfit => ?_, fun _ => ⟨_, _, _, put⟩⟩
              have small := unfit size sized _ member
              omega

/-- Larger values begin in the database. -/
def flaky : CacheSetup (PerTier (Scripted MemoryWorld)) :=
  .scripted { budgets := ⟨50, 100, 100, 100⟩, memoryLimit := 35 } none id

/-- Empty stores, and which of the coming calls on those of memory and the database fail. -/
def scripts (memory database : List Bool) : PerTier (Scripted MemoryWorld) :=
  ⟨⟨memory, false, []⟩, ⟨database, false, []⟩, ⟨[], false, []⟩, ⟨[], false, []⟩⟩

/-- What a store holds under a key. -/
def kept? (worlds : PerTier (Scripted MemoryWorld)) (tier : Tier) (key : String) : Option Value :=
  (MemoryStore.shelf (worlds.get tier).inner).item? key

theorem flaky_faltering : flaky.Faltering (fun _ => True)
    (fun worlds => ∀ tier, MemoryStore.Sound (worlds.get tier).inner)
    (fun worlds tier => MemoryStore.shelf (worlds.get tier).inner)
    (fun worlds tier => MemoryStore.Holds (worlds.get tier).inner)
    fun worlds tier => (worlds.get tier).refused = true ∨ False :=
  CacheSetup.scripted_faltering _ none id

theorem sound_scripts (memory database : List Bool) (tier : Tier) :
    MemoryStore.Sound ((scripts memory database).get tier).inner := by
  cases tier <;> exact ⟨List.nodup_nil, List.forall_mem_nil _⟩

theorem bare_scripts (memory database : List Bool) (tier : Tier) :
    MemoryStore.shelf ((scripts memory database).get tier).inner = .empty := by
  cases tier <;> rfl

theorem fit_flaky : ¬Unfit flaky (zeros 8) := by
  intro unfit
  have small := unfit 20 rfl .memory (by decide)
  revert small
  decide

theorem leads_rejected : Leads (fun _ => False)
    (runAll flaky [.put "k" (zeros 48) none, .put "v" (zeros 22) none])
    (.start flaky (scripts [false, false, false, true] [])) fun _ state =>
      ((state.lookup "k").map Entry.tier = some .sqlite ∧
        (state.lookup "v").map Entry.tier = some .memory) ∧
      Leads (fun _ => False) (put flaky "k" (zeros 8) none) state fun answer final =>
        answer = false ∧ (final.lookup "v").map Entry.tier = some .sqlite ∧
          (final.world.get .sqlite).refused = false := by
  decide +kernel

/-- Memory refuses the value, after another one was demoted to where the key has its entry. -/
theorem put_rejected_demoted :
    ∃ history state final,
      runAll flaky [.put "k" (zeros 48) none, .put "v" (zeros 22) none]
          (.start flaky (scripts [false, false, false, true] [])) = .ok history state ∧
        put flaky "k" (zeros 8) none state = .ok false final ∧
        (state.lookup "k").map Entry.tier = some .sqlite ∧
        (state.lookup "v").map Entry.tier = some .memory ∧
        (final.lookup "v").map Entry.tier = some .sqlite ∧
        (final.world.get .sqlite).refused = false ∧
        (Unfit flaky (zeros 8) →
          final.entries = state.entries ∧ final.usage = state.usage ∧ final.world = state.world) ∧
        (¬Unfit flaky (zeros 8) → ∃ tier before error,
          ((flaky.stores.get tier).put "k" (zeros 8)).run before = .ok (.error error) final.world) ∧
        Undisturbed (fun worlds tier => MemoryStore.shelf (worlds.get tier).inner)
          (fun worlds tier => (worlds.get tier).refused = true ∨ False) history "k" state final := by
  rcases leads_rejected.ends (fun _ => id) with ⟨history, state, reached, ⟨low, high⟩, leads⟩
  rcases leads.ends (fun _ => id) with ⟨answer, final, ended, rfl, sunk, spared⟩
  have offers : ∀ call ∈ [CacheCall.put "k" (zeros 48) none, .put "v" (zeros 22) none],
      call.Offers fun _ => True := by
    intro call _
    cases call <;> trivial
  exact ⟨history, state, final, reached, ended, low, high, sunk, spared,
    put_rejected flaky flaky_faltering _ (sound_scripts _ _) (bare_scripts _ _) _ offers reached ended⟩

/-- The database refuses to delete a value, so that it later holds more than is counted. -/
def orphaning : List CacheCall :=
  [.put "k" (zeros 48) none, .put "g" (zeros 28) none, .delete "g", .put "v" (zeros 22) none]

theorem leads_orphaning : Leads (fun _ => False) (runAll flaky orphaning)
    (.start flaky (scripts [false, false, false, true] [false, false, true])) fun _ state =>
      ((state.lookup "k").map Entry.tier = some .sqlite ∧
        (kept? state.world .sqlite "k").isSome = true) ∧
      Leads (fun _ => False) (put flaky "k" (zeros 8) none) state fun answer final =>
        answer = false ∧ ∀ tier ∈ Tier.all, (kept? final.world tier "k").isNone = true := by
  decide +kernel

/-- Then memory refuses a new value of a key, after another value was demoted to the database, which gave up the
key's payload for it. -/
theorem put_rejected_loses_payload :
    ∃ history state final previous,
      runAll flaky orphaning (.start flaky (scripts [false, false, false, true] [false, false, true])) =
          .ok history state ∧
        put flaky "k" (zeros 8) none state = .ok false final ∧ ¬Unfit flaky (zeros 8) ∧
        (state.lookup "k").map Entry.tier = some .sqlite ∧ latest "k" history = some previous ∧
        kept? state.world .sqlite "k" = some previous ∧ ∀ tier, kept? final.world tier "k" = none := by
  rcases leads_orphaning.ends (fun _ => id) with ⟨history, state, reached, ⟨low, there⟩, leads⟩
  rcases leads.ends (fun _ => id) with ⟨answer, final, ended, rfl, gone⟩
  obtain ⟨previous, payload⟩ := Option.isSome_iff_exists.mp there
  obtain ⟨entry, found, own⟩ := Option.map_eq_some_iff.mp low
  have offers : ∀ call ∈ orphaning, call.Offers fun _ => True := by
    intro call _
    cases call <;> trivial
  have stocked := stocked_of_runAll flaky_faltering (sound_scripts _ _) (bare_scripts _ _) offers reached
  have new : latest "k" history = some previous := stocked.eq_newest flaky_faltering found (own ▸ payload)
  refine ⟨history, state, final, previous, reached, ended, fit_flaky, low, new, payload, fun tier => ?_⟩
  exact Option.isNone_iff_eq_none.mp (gone tier (by cases tier <;> decide))

end TieredCache

end TierVault

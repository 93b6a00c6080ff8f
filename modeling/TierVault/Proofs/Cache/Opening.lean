import TierVault.Cache.Opening
import TierVault.Proofs.Cache.Losses
import TierVault.Proofs.Store.Success
import TierVault.Zstandard.Codec

/-!
A cache that finds what an earlier run left behind, or what it knows of already.

Where whatever is listed has an entry, nothing is adopted. But a listed payload of a known key counts as a
copy that is left over, also where it is the one that the entry tells of: so every payload is deleted, and the
entries stay behind without them.

No room is made for the entries that are adopted, so a tier may begin with more bytes than its capacity. Its counts
tally all the same, and from there on no call lets a tier that is over its capacity grow, nor one that is within its
capacity leave it.
-/

namespace TierVault

/-! # Finding what is known -/

section

variable {World : Type}

namespace Shelf

theorem item?_remove (shelf : Shelf) (key asked : String) :
    (shelf.remove key).item? asked = if asked = key then none else shelf.item? asked := rfl

theorem item?_foldl_remove (shelf : Shelf) (keys : List String) (asked : String) :
    (keys.foldl remove shelf).item? asked = if asked ∈ keys then none else shelf.item? asked := by
  induction keys generalizing shelf with
  | nil => simp
  | cons key rest induction =>
      rw [List.foldl_cons, induction, item?_remove]
      by_cases own : asked = key
      · simp [own]
      · simp [own]

end Shelf

/-- Every store tells the keys of its shelf. -/
def CacheSetup.Lists (setup : CacheSetup World) (sound : World → Prop)
    (shelves : World → Tier → Shelf) : Prop :=
  ∀ tier world, sound world → ∃ listed after,
    (setup.stores.get tier).entries.run world = .ok (.ok listed) after ∧ sound after ∧
      shelves after = shelves world ∧
        ∀ key, key ∈ listed.map Prod.fst ↔ (shelves world tier).item? key ≠ none

namespace TieredCache

open TierVault.Action CacheState

variable {setup : CacheSetup World} {storable : Value → Prop} {sound : World → Prop}
  {shelves : World → Tier → Shelf} {newest : String → Option Value} {state : CacheState World}
  {tier : Tier}

/-- Only the payloads of a tier change: those of the keys are gone. -/
def Discarded (sound : World → Prop) (shelves : World → Tier → Shelf) (tier : Tier)
    (keys : List String) (state final : CacheState World) : Prop :=
  ∃ world, final = state.inWorld world ∧ sound world ∧
    shelves world = Shelf.change (shelves state.world) tier (keys.foldl Shelf.remove)

/-- Payloads of keys that have entries are deleted, one after the other. -/
theorem leads_adopt_known (sturdy : setup.Sturdy storable sound shelves) (stored : List (String × Nat))
    (known : ∀ pair ∈ stored, ∃ entry, state.lookup pair.1 = some entry) (isSound : sound state.world) :
    Leads (fun _ => False) (stored.mapM fun (key, size) => adopt setup tier key size) state
      fun counts final => sumOf counts = 0 ∧
        Discarded sound shelves tier (stored.map Prod.fst) state final := by
  induction stored generalizing state with
  | nil => exact ⟨rfl, state.world, rfl, isSound, (Shelf.eq_change rfl fun _ _ => rfl)⟩
  | cons pair rest induction =>
      obtain ⟨key, size⟩ := pair
      obtain ⟨entry, found⟩ := known _ List.mem_cons_self
      simp only [List.mapM_cons, adopt, leads_bind, leads_pure, leads_lookup, found]
      rcases sturdy.delete tier key _ isSound with ⟨told, after, ended, stays, less⟩
      refine leads_discardPayload sturdy.steady isSound fun answer world called _ => ?_
      rw [ended] at called
      cases called
      have later : ∀ pair ∈ rest, ∃ entry, (state.inWorld after).lookup pair.1 = some entry :=
        fun pair member => known pair (List.mem_cons_of_mem _ member)
      refine (induction later stays).imp ?_
      rintro counts final - ⟨none_new, world, rfl, done, gone⟩
      refine ⟨by rw [sumOf_cons, none_new], world, rfl, done, ?_⟩
      rw [gone, world_inWorld, less, Shelf.change_change]
      rfl

/-- What the store of one tier holds is adopted. -/
def survey (setup : CacheSetup World) (tier : Tier) : CacheAction World Nat := do
  match ← onStore setup tier (·.entries) with
  | .error _ => return 0
  | .ok stored => return sumOf (← stored.mapM fun (key, size) => adopt setup tier key size)

theorem restore_eq (setup : CacheSetup World) :
    restore setup = (do return sumOf (← Tier.all.mapM (survey setup))) := rfl

/-- The stores of the tiers hold nothing any more, and nothing else changed. -/
structure Emptied (sound : World → Prop) (shelves : World → Tier → Shelf) (tiers : List Tier)
    (state final : CacheState World) : Prop where
  same : final = state.inWorld final.world
  sound : sound final.world
  bare : ∀ tier ∈ tiers, ∀ key, (shelves final.world tier).item? key = none
  others : ∀ tier, tier ∉ tiers → shelves final.world tier = shelves state.world tier

theorem leads_survey_known (sturdy : setup.Sturdy storable sound shelves)
    (lists : setup.Lists sound shelves) (isSound : sound state.world)
    (known : ∀ key, (shelves state.world tier).item? key ≠ none →
      ∃ entry, state.lookup key = some entry) :
    Leads (fun _ => False) (survey setup tier) state fun count final =>
      count = 0 ∧ Emptied sound shelves [tier] state final := by
  obtain ⟨listed, after, answered, stays, same, holds⟩ := lists tier state.world isSound
  have asked : onStore setup tier (·.entries) state = .ok (.ok listed) (state.inWorld after) := by
    unfold onStore
    rw [answered]
    rfl
  simp only [survey, leads_bind]
  refine (leads_of_eq asked).mpr ?_
  simp only [leads_bind, leads_pure]
  refine (leads_adopt_known sturdy listed ?_ stays).imp ?_
  · intro pair member
    exact known pair.1 ((holds pair.1).mp (List.mem_map_of_mem member))
  · rintro counts final - ⟨none_new, world, rfl, done, gone⟩
    rw [world_inWorld, same] at gone
    refine ⟨none_new, rfl, done, ?_, ?_⟩
    · intro place own key
      cases List.mem_singleton.mp own
      rw [world_inWorld, gone, Shelf.change_same, Shelf.item?_foldl_remove]
      by_cases there : key ∈ listed.map Prod.fst
      · rw [if_pos there]
      · rw [if_neg there]
        exact Decidable.not_not.mp fun held => there ((holds key).mpr held)
    · intro place other
      rw [world_inWorld, gone, Shelf.change_other _ _ (by simpa using other)]

theorem leads_surveys_known (sturdy : setup.Sturdy storable sound shelves)
    (lists : setup.Lists sound shelves) (tiers : List Tier) (isSound : sound state.world)
    (known : ∀ tier key, (shelves state.world tier).item? key ≠ none →
      ∃ entry, state.lookup key = some entry) :
    Leads (fun _ => False) (tiers.mapM (survey setup)) state fun counts final =>
      sumOf counts = 0 ∧ Emptied sound shelves tiers state final := by
  induction tiers generalizing state with
  | nil => exact ⟨rfl, rfl, isSound, by simp, fun _ _ => rfl⟩
  | cons tier rest induction =>
      simp only [List.mapM_cons, leads_bind, leads_pure]
      refine (leads_survey_known sturdy lists isSound (known tier)).imp ?_
      rintro count middle - ⟨rfl, first⟩
      -- Payloads that are left are of keys that were known before.
      have onward : ∀ place key, (shelves middle.world place).item? key ≠ none →
          ∃ entry, middle.lookup key = some entry := by
        intro place key held
        rw [first.same]
        by_cases own : place = tier
        · exact absurd (first.bare place (List.mem_singleton.mpr own) key) held
        · rw [first.others place (by simpa using own)] at held
          exact known place key held
      refine (induction first.sound onward).imp ?_
      rintro counts final - ⟨none_new, later⟩
      refine ⟨by rw [sumOf_cons, none_new], ?_, later.sound, ?_, ?_⟩
      · rw [later.same, first.same]
        rfl
      · intro place member key
        by_cases ahead : place ∈ rest
        · exact later.bare place ahead key
        · rw [later.others place ahead]
          exact first.bare place (List.mem_singleton.mpr ((List.mem_cons.mp member).resolve_right ahead)) key
      · intro place outside
        obtain ⟨different, beyond⟩ := not_or.mp (mt List.mem_cons.mpr outside)
        rw [later.others place beyond, first.others place (by simpa using different)]

theorem get_of_bare (sturdy : setup.Sturdy storable sound shelves) (tallied : state.Tallied setup)
    (isSound : sound state.world) {key : String} {entry : Entry} (found : state.lookup key = some entry)
    (live : entry.isExpired (setup.clock state.readings) = false)
    (bare : (shelves state.world entry.tier).item? key = none) :
    ∃ final, get setup key state = .ok none final ∧ final.lookup key = none := by
  rcases sturdy.get entry.tier key _ isSound with ⟨world, answered, -⟩
  rw [bare] at answered
  have drops : Leads (fun _ => False) (get setup key) state fun answer final =>
      answer = none ∧ final.lookup key = none := by
    simp only [get, leads_bind, leads_readClock, leads_lookup, lookup_timed, found, live,
      Bool.false_eq_true, if_false]
    have asked : onStore setup entry.tier (·.get key) state.timed =
        .ok (.ok none) (state.timed.inWorld world) := by
      unfold onStore
      rw [world_timed, answered]
      rfl
    refine (leads_of_eq asked).mpr ?_
    simp only [leads_bind, leads_miss]
    refine leads_dropEntry (fun _ there => (tallied.timed.inWorld world).covers there) ?_ ?_
    · intro unknown
      cases unknown.symm.trans found
    · intro held _
      simp [missed, lookup_forget]
  obtain ⟨answer, final, ended, rfl, gone⟩ := drops.ends fun _ => id
  exact ⟨final, ended, gone⟩

/-- Where cache and stores agree, `restore` adopts nothing and leaves entries, counts and ticks as they are, but
it deletes every payload. Every key whose value could be read before misses after, and loses its entry. -/
theorem restore_of_agrees (sturdy : setup.Sturdy storable sound shelves) (lists : setup.Lists sound shelves)
    (agrees : Agrees setup storable sound shelves newest state) :
    ∃ world, restore setup state = .ok 0 (state.inWorld world) ∧
      (∀ tier key, ∃ after, ((setup.stores.get tier).get key).run world = .ok (.ok none) after) ∧
      ∀ key entry, state.lookup key = some entry →
        entry.isExpired (setup.clock state.readings) = false →
          newest key ≠ none ∧
          (∀ answer next, get setup key state = .ok answer next → answer = newest key) ∧
          ∃ next, get setup key (state.inWorld world) = .ok none next ∧ next.lookup key = none := by
  have known : ∀ tier key, (shelves state.world tier).item? key ≠ none →
      ∃ entry, state.lookup key = some entry := by
    intro tier key held
    rw [agrees.stocked] at held
    cases found : state.lookup key with
    | none => exact absurd (item?_shelf_of_unknown found) held
    | some entry => exact ⟨entry, rfl⟩
  have leads : Leads (fun _ => False) (restore setup) state fun count final =>
      count = 0 ∧ Emptied sound shelves Tier.all state final := by
    simp only [restore_eq, leads_bind, leads_pure]
    exact leads_surveys_known sturdy lists Tier.all agrees.sound known
  obtain ⟨count, final, ended, rfl, emptied⟩ := leads.ends fun _ => id
  have bare (tier : Tier) (key : String) : (shelves final.world tier).item? key = none :=
    emptied.bare tier (by cases tier <;> decide) key
  refine ⟨final.world, emptied.same ▸ ended, fun tier key => ?_, fun key entry found live => ⟨?_, ?_, ?_⟩⟩
  · rcases sturdy.get tier key _ emptied.sound with ⟨after, answered, -⟩
    rw [bare tier key] at answered
    exact ⟨after, answered⟩
  · rcases agrees.sized key entry found with ⟨value, new, -⟩
    rw [new]
    exact Option.some_ne_none value
  · intro answer next read
    have reads : Reads setup key state answer next := outcome_of_ok agrees.balanced.toTallied (.get key) read
    exact (reads.agrees sturdy agrees).2 entry found live
  · exact get_of_bare sturdy (agrees.balanced.toTallied.inWorld _) emptied.sound found live (bare entry.tier key)

theorem inMemory_lists (tiers : TierConfig) (defaultLifetime? : Option Nat) (clock : Nat → Nat) :
    (CacheSetup.inMemory tiers defaultLifetime? clock).Lists
      (fun worlds => ∀ tier, MemoryStore.Sound (worlds.get tier))
      (fun worlds tier => MemoryStore.shelf (worlds.get tier)) := by
  intro tier worlds isSound
  have keys (key : String) : key ∈ (RecencyList.listing (worlds.get tier)).map Prod.fst ↔
      (RecencyList.find? key (worlds.get tier)).map Resident.item ≠ none := by
    rw [Option.ne_none_iff_isSome, Option.isSome_map, RecencyList.find?, List.find?_isSome]
    simp [RecencyList.listing]
  cases tier <;> exact ⟨_, worlds, rfl, isSound, rfl, keys⟩

/-- One value in each of two tiers. -/
theorem restore_of_agrees_crowded :
    let setup := CacheSetup.inMemory { budgets := ⟨5, 5, 5, 5⟩ } none id
    let calls : List CacheCall := [.put "left" .null none, .put "right" (.flag true) none]
    ∃ history state world, runAll setup calls (.start setup (.const [])) = .ok history state ∧
      restore setup state = .ok 0 (state.inWorld world) ∧ ∀ key ∈ ["left", "right"],
        (∀ answer next, get setup key state = .ok answer next → answer = latest key history) ∧
        ∃ next, get setup key (state.inWorld world) = .ok none next := by
  intro setup calls
  rcases (show Leads (fun _ => False) (runAll setup calls) (.start setup (.const [])) fun _ state =>
      ∀ key ∈ ["left", "right"],
        (state.lookup key).map (·.isExpired (setup.clock state.readings)) = some false
    by decide +kernel).ends (fun _ => id) with ⟨history, state, reached, held⟩
  have sturdy := CacheSetup.inMemory_sturdy setup.tiers none id
  have isSound (tier : Tier) : MemoryStore.Sound ((PerTier.const []).get tier) := by
    cases tier <;> exact ⟨List.nodup_nil, nofun⟩
  have bare (tier : Tier) : MemoryStore.shelf ((PerTier.const []).get tier) = .empty := by
    cases tier <;> rfl
  have offers : ∀ call ∈ calls, call.Offers fun _ => True := by
    intro call _
    cases call <;> trivial
  have agrees := agrees_of_runAll sturdy isSound bare offers reached
  obtain ⟨world, ended, -, loses⟩ :=
    restore_of_agrees sturdy (inMemory_lists setup.tiers none id) agrees
  refine ⟨history, state, world, reached, ended, fun key member => ?_⟩
  obtain ⟨entry, found, live⟩ := Option.map_eq_some_iff.mp (held key member)
  obtain ⟨-, read, next, missed, -⟩ := loses key entry found live
  exact ⟨read, next, missed⟩

/-- A value that can be read is gone once the stores were asked what they hold. -/
theorem restore_loses_value :
    let setup := CacheSetup.inMemory { budgets := ⟨5, 5, 5, 5⟩ } none id
    ∃ history state final, runAll setup [.put "left" .null none] (.start setup (.const [])) =
        .ok history state ∧
      (∃ value next, get setup "left" state = .ok (some value) next) ∧
      restore setup state = .ok 0 final ∧ final.lookup "left" = state.lookup "left" ∧
      ∃ next, get setup "left" final = .ok none next := by
  intro setup
  rcases (show Leads (fun _ => False) (runAll setup [.put "left" .null none])
      (.start setup (.const [])) fun _ state =>
        Leads (fun _ => False) (get setup "left") state (fun answer _ => answer.isSome = true) ∧
        Leads (fun _ => False) (restore setup) state fun count final =>
          count = 0 ∧ final.lookup "left" = state.lookup "left" ∧
            Leads (fun _ => False) (get setup "left") final fun answer _ => answer.isNone = true
    by decide +kernel).ends (fun _ => id) with ⟨history, state, reached, reads, restores⟩
  rcases reads.ends fun _ => id with ⟨answer, next, read, isSome⟩
  rcases restores.ends fun _ => id with ⟨count, final, restored, rfl, same, misses⟩
  rcases misses.ends fun _ => id with ⟨missed, last, gone, isNone⟩
  obtain ⟨value, rfl⟩ := Option.isSome_iff_exists.mp isSome
  obtain rfl := Option.isNone_iff_eq_none.mp isNone
  exact ⟨history, state, final, reached, ⟨value, next, read⟩, restored, same, last, gone⟩

end TieredCache

end

/-! # Finding what an earlier run left -/

section

open TierVault.Action CacheState

namespace TieredCache

variable {World Result : Type} {setup : CacheSetup World} {state : CacheState World} {tier : Tier}

/-! ## What the stores hold comes into the books -/

theorem leads_anyStore {call : Store World → StoreAction World Result}
    {after : Except StoreError Result → CacheState World → Prop}
    (leads : ∀ answer world, after answer (state.inWorld world)) :
    Leads AnyFault (onStore setup tier call) state after := by
  refine leads_any.mpr fun answer final ended => ?_
  unfold onStore at ended
  split at ended
  · cases ended
    exact leads _ _
  · cases ended

theorem leads_adopt (tallied : state.Tallied setup) (tier : Tier) (key : String) (size : Nat) :
    Leads AnyFault (adopt setup tier key size) state fun _ final => final.Tallied setup := by
  simp only [adopt, leads_bind, leads_lookup]
  cases found : state.lookup key with
  | some entry =>
      simp only [discardPayload, leads_bind, leads_pure]
      exact leads_anyStore fun _ world => tallied.inWorld world
  | none =>
      simp only [leads_bind, leads_pure]
      refine leads_insertEntry (fun checked => absurd trivial checked) ?_
      exact tallied.ticked.timed.enroll rfl found

theorem leads_survey (tallied : state.Tallied setup) (tier : Tier) :
    Leads AnyFault (survey setup tier) state fun _ final => final.Tallied setup := by
  simp only [survey, leads_bind]
  refine leads_anyStore fun answer world => ?_
  cases answer with
  | error error => exact tallied.inWorld world
  | ok stored =>
      simp only [leads_bind, leads_pure]
      exact leads_mapM (fun pair _ _ tallied => leads_adopt tallied tier pair.1 pair.2)
        (tallied.inWorld world)

theorem leads_restore (tallied : state.Tallied setup) :
    Leads AnyFault (restore setup) state fun _ final => final.Tallied setup := by
  simp only [restore_eq, leads_bind, leads_pure]
  exact leads_mapM (fun tier _ _ tallied => leads_survey tallied tier) tallied

theorem leads_clearStores (tallied : state.Tallied setup) :
    Leads AnyFault (clearStores setup) state fun _ final => final.Tallied setup := by
  refine leads_forM (fun _ (state : CacheState World) => state.Tallied setup)
    (fun tier _ state tallied => ?_) tallied
  simp only [leads_bind, leads_pure]
  exact leads_anyStore fun _ world => tallied.inWorld world

end TieredCache

/-! ## Opening -/

namespace OpenCache

open TieredCache

variable {codec : FrameCodec} {config : Config} {clock : Nat → Nat} {files after : FileSystem}
  {cache : OpenCache}

theorem ended_of_run {Result : Type} {action : CacheSetup Storage → CacheAction Storage Result}
    {result : Result} {final : OpenCache} (ended : run action cache = .ok result final) :
    ∃ state, action cache.setup cache.state = .ok result state ∧ final = { cache with state } := by
  unfold run at ended
  split at ended
  · rename_i own state called
    cases ended
    exact ⟨state, called, rfl⟩
  · cases ended

/-- An opening that ends has opened the stores, and then emptied them or asked them what they hold. -/
theorem ended_of_openIn
    (opened : (openIn codec config clock).run files = .ok (.ok cache) after) :
    cache.storage = .ofConfig codec config ∧
      cache.setup = .ofConfig config (Storage.stores (.ofConfig codec config)) clock ∧
      after = cache.files ∧ ∃ storage middle,
        (Storage.openIn (.ofConfig codec config)).run files = .ok (.ok storage) middle ∧
          if config.cache.clearOnOpen
            then clearStores cache.setup (.start cache.setup storage) = .ok () cache.state
            else ∃ count, restore cache.setup (.start cache.setup storage) = .ok count cache.state := by
  obtain ⟨storage, middle, stored, opened⟩ := StoreAction.ended_of_bind opened
  obtain ⟨own, last, first, opened⟩ := StoreAction.ended_of_bind opened
  obtain ⟨⟨⟩, final, kept, opened⟩ := StoreAction.ended_of_bind opened
  cases opened
  cases kept
  obtain ⟨first, rfl⟩ := StoreAction.ended_of_checked first
  split at first
  · rename_i ended
    cases first
    cases clearing : config.cache.clearOnOpen with
    | true =>
        rw [clearing, if_pos rfl] at ended
        obtain ⟨state, cleared, rfl⟩ := ended_of_run ended
        exact ⟨rfl, rfl, rfl, storage, last, stored, cleared⟩
    | false =>
        rw [clearing, if_neg Bool.false_ne_true] at ended
        have leads (opened : OpenCache) : Leads AnyFault (do let _ ← run restore) opened
            fun _ final => ∃ count, run restore opened = .ok count final := by
          simp only [leads_bind, leads_pure]
          exact leads_any.mpr fun count final ended => ⟨count, ended⟩
        obtain ⟨count, asked⟩ := (leads _).of_ok ended
        obtain ⟨state, restored, rfl⟩ := ended_of_run asked
        exact ⟨rfl, rfl, rfl, storage, last, stored, count, restored⟩
  · cases first

/-- Whatever the stores hold when a cache is opened, its counts tally. From there on, no tier ever holds more
than its capacity, unless it held as many bytes before; and a tier that is over its capacity does not grow. -/
theorem bytes_le_of_openIn
    (opened : (openIn codec config clock).run files = .ok (.ok cache) after) :
    (∀ tier, cache.state.usage.get tier = cache.state.tally cache.setup tier) ∧
      ∀ (earlier later : List CacheCall) (past onward : List CacheEvent)
        (middle final : CacheState Storage),
        runAll cache.setup earlier cache.state = .ok past middle →
        runAll cache.setup later middle = .ok onward final → ∀ tier,
          (final.usage.get tier).bytes ≤
            max (config.tiers.capacity tier) (middle.usage.get tier).bytes := by
  obtain ⟨-, setup, -, storage, -, -, first⟩ := ended_of_openIn opened
  have tallied : cache.state.Tallied cache.setup := by
    split at first
    · exact (leads_clearStores (.start storage)).of_ok first
    · obtain ⟨count, restored⟩ := first
      exact (leads_restore (.start storage)).of_ok restored
  refine ⟨tallied.usage, fun earlier later past onward middle final reached ended tier => ?_⟩
  have restrained := (lives_of_ok tallied reached).2
  have bound := (lives_of_ok restrained.tallied ended).2.bytes_le tier
  rwa [setup] at bound

/-- All values begin in the database, and nothing is emptied. -/
def inDatabase (budget : Nat) : Config where
  cache := { directory := "", clearOnOpen := false }
  tiers := { budgets := ⟨0, budget, 0, 0⟩, memoryLimit := 0 }

/-- A row that is larger than the budget leaves for a smaller value. -/
theorem bytes_le_of_openIn_narrowed :
    let files := (FileSystem.start []).place ["cache.db"] (.database [⟨"a", 60, [], false, 0⟩])
    ∃ cache after history final,
      (openIn Zstandard.codec (inDatabase 59) id).run files = .ok (.ok cache) after ∧
        (cache.state.usage.get .sqlite).bytes = 60 ∧
        runAll cache.setup [.put "b" .null none] cache.state = .ok history final ∧ ∀ tier,
          (final.usage.get tier).bytes ≤
            max ((inDatabase 59).tiers.capacity tier) (cache.state.usage.get tier).bytes := by
  intro files
  obtain ⟨cache, after, opened, held, runs⟩ : ∃ cache after,
      (openIn Zstandard.codec (inDatabase 59) id).run files = .ok (.ok cache) after ∧
        (cache.state.usage.get .sqlite).bytes = 60 ∧
        Leads (fun _ => False) (runAll cache.setup [.put "b" .null none]) cache.state fun _ _ => True := by
    apply StoreAction.Succeeds.ends ?_ fun _ => id
    decide +kernel
  obtain ⟨history, final, ended, -⟩ := runs.ends fun _ => id
  refine ⟨cache, after, history, final, opened, held, ended, ?_⟩
  exact (bytes_le_of_openIn opened).2 [] _ [] _ _ _ rfl ended

/-- A tier that was full is over its capacity when the cache is opened with a smaller one. -/
theorem openIn_over_capacity : ∃ first opened history state cache after,
    (openIn Zstandard.codec (inDatabase 60) id).run (.start []) = .ok (.ok first) opened ∧
      runAll first.setup [.put "a" (zeros 48) none] first.state = .ok history state ∧
      (openIn Zstandard.codec (inDatabase 59) id).run (close { first with state }) =
        .ok (.ok cache) after ∧
      (inDatabase 59).tiers.capacity .sqlite < (cache.state.usage.get .sqlite).bytes := by
  obtain ⟨first, opened, opens, runs⟩ : ∃ first opened,
      (openIn Zstandard.codec (inDatabase 60) id).run (.start []) = .ok (.ok first) opened ∧
        Leads (fun _ => False) (runAll first.setup [.put "a" (zeros 48) none]) first.state fun _ state =>
          StoreAction.Succeeds (fun _ => False) (openIn Zstandard.codec (inDatabase 59) id)
            (close { first with state }) fun cache _ =>
              (inDatabase 59).tiers.capacity .sqlite < (cache.state.usage.get .sqlite).bytes := by
    apply StoreAction.Succeeds.ends ?_ fun _ => id
    decide +kernel
  obtain ⟨history, state, ran, restarts⟩ := runs.ends fun _ => id
  obtain ⟨cache, after, reopens, exceeds⟩ := restarts.ends fun _ => id
  exact ⟨first, opened, history, state, cache, after, opens, ran, reopens, exceeds⟩

end OpenCache

end

end TierVault
